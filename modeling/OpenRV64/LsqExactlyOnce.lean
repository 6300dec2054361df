/-
The ledger of the load/store queue: every entry that enters it completes once or is
cancelled, and no answer to an accepted request is lost.
-/
import OpenRV64.LsqRelease
import OpenRV64.LsqTranslation

namespace OpenRV64

open LsqInput LsqState LsqXlateState Sync
open Bool (and_eq_true or_eq_true)

/-- What has become of the entry of a slot: its allocation, whether memory has
accepted its access, how often its result was reported, and whether it was flushed or
squashed before that. -/
structure LsqLife (p : LsqParams) where
  ticket : LsqAlloc p
  accepted : Bool
  reports : Nat
  cancelled : Bool

/-- A cycle's inputs together with the entries that the answers are for. -/
structure LsqLedgerInput (p : LsqParams) where
  xlate : LsqXlateInput p
  respAnswers : Nat
  doneAnswers : Nat

/-- The queue together with the lives of its entries, and the accesses that memory has
still to answer. -/
structure LsqLedger (p : LsqParams) where
  xlate : LsqXlateState p
  life : Nat → LsqLife p
  inflight : List LsqRequest

def LsqLedgerInput.pins {p : LsqParams} (i : LsqLedgerInput p) : LsqInput p := i.xlate.pins

namespace LsqLedger

variable {p : LsqParams} (t : LsqLedger p) (i : LsqLedgerInput p)

def queue : LsqState p := t.xlate.queue

/-- The life of the entry of a slot after this cycle. -/
def lifeNext (k : Nat) : LsqLife p :=
  match t.queue.allocInto i.pins k with
  | some (a, _) => ⟨a, false, 0, false⟩
  | none =>
    let accepted := (t.life k).accepted || t.queue.reqAt i.pins k
    let reports := (t.life k).reports + (t.queue.resultAt i.pins k).toNat
    { ticket := (t.life k).ticket
      accepted := accepted
      reports := reports
      cancelled := (t.life k).cancelled ||
        (t.queue.cancels i.pins k accepted && reports == 0 && !LsqState.atomicDoneAt i.pins k) }

/-- The accesses that can be answered in this cycle. -/
def openAccesses : List LsqRequest :=
  if t.queue.reqFire i.pins then
    t.inflight ++ [⟨t.queue.requestIndex i.pins, t.xlate.since (t.queue.requestIndex i.pins)⟩]
  else t.inflight

def respRequest : LsqRequest := ⟨i.pins.respTagI, i.respAnswers⟩
def doneRequest : LsqRequest := ⟨i.pins.storeDoneTagI, i.doneAnswers⟩

/-- The access is still to be answered after this cycle.  A flush hands the reads to
the bus, which cancels them. -/
def unanswered (r : LsqRequest) : Bool :=
  !(t.queue.respFire i.pins && decide (r = respRequest i)) &&
    !(i.pins.storeDoneValidI && decide (r = doneRequest i)) &&
      (!i.pins.flushI || (t.queue.slots r.tag).store)

def inflightNext : List LsqRequest := (t.openAccesses i).filter (t.unanswered i)

end LsqLedger

/-- The queue from reset, with its ledger. -/
def lsqLedger (p : LsqParams) : Circuit (LsqLedger p) (LsqLedgerInput p) where
  Init t := (lsqXlate p).Init t.xlate ∧ t.inflight = []
  step t i :=
    { xlate := (lsqXlate p).step t.xlate i.xlate
      life := t.lifeNext i
      inflight := t.inflightNext i }

namespace LsqLedger

variable {p : LsqParams}

/-- Every accepted request is answered once, on a channel that serves it: stores that
complete in two halves are released by either channel, all other accesses by their
response. -/
structure Answers (t : LsqLedger p) (i : LsqLedgerInput p) : Prop where
  atomic : t.queue.AtomicPorts i.pins
  xlate : i.pins.xlateRespValidI = true → response i.xlate ∈ t.xlate.openRequests i.xlate
  resp : i.pins.respValidI = true → respRequest i ∈ t.openAccesses i
  done : i.pins.storeDoneValidI = true → doneRequest i ∈ t.openAccesses i ∧
    (t.queue.slots i.pins.storeDoneTagI).store = true ∧
      (t.queue.slots i.pins.storeDoneTagI).cacheable = true
  distinct : i.pins.respValidI = true → i.pins.storeDoneValidI = true →
    respRequest i ≠ doneRequest i

/-- The result handshake of a slot is the first one of its entry, which nothing has
cancelled, and carries what was allocated. -/
structure Reports (t : LsqLedger p) (i : LsqLedgerInput p) (k : Nat) : Prop where
  valid : (t.queue.slots k).valid = true
  first : (t.life k).reports = 0
  standing : (t.life k).cancelled = false
  id : t.queue.resultIdO i.pins = (t.life k).ticket.id
  slot : t.queue.resultSlotO i.pins = (t.life k).ticket.slot
  info : t.queue.resultMetaO i.pins = (t.life k).ticket.info

/-- A slot is freed with nothing under way for it, by an entry that has completed once,
or was cancelled before it could. -/
structure Leaves (t : LsqLedger p) (i : LsqLedgerInput p) (k : Nat) : Prop where
  answered : ∀ r ∈ ((lsqLedger p).step t i).xlate.pending ++
    ((lsqLedger p).step t i).inflight, r.tag ≠ k
  once : atomicDoneAt i.pins k = true ∨
    ((t.lifeNext i k).cancelled = true ∧ (t.lifeNext i k).reports = 0) ∨
      ((t.lifeNext i k).cancelled = false ∧ (t.lifeNext i k).reports = 1)

/-- Entries complete exactly once, and answers reach the entries that wait for them. -/
structure ExactlyOnce (past : Past (LsqLedger p) (LsqLedgerInput p))
    (t : LsqLedger p) : Prop where
  placed : ∀ x ∈ past, ∀ k a store, x.1.queue.allocInto x.2.pins k = some (a, store) →
      (x.1.queue.slots k).valid = false ∧ ((x.1.queue.step x.2.pins).slots k).valid = true
  requests : ∀ x ∈ past, ∀ k, x.1.queue.reqAt x.2.pins k = true →
    (x.1.life k).accepted = false ∧ (x.1.life k).cancelled = false
  results : ∀ x ∈ past, ∀ k, x.1.queue.resultAt x.2.pins k = true → Reports x.1 x.2 k
  freed : ∀ x ∈ past, ∀ k, (x.1.queue.slots k).valid = true →
    ((x.1.queue.step x.2.pins).slots k).valid = false → Leaves x.1 x.2 k
  owners : ∀ r ∈ t.xlate.pending ++ t.inflight,
    (t.queue.slots r.tag).valid = true ∧ r.since = t.xlate.since r.tag
  held : ∀ k, (t.queue.slots k).valid = true →
    ((t.life k).cancelled = false ∧ (t.life k).reports = 0) ∨
      ∃ r ∈ t.xlate.pending ++ t.inflight, r.tag = k
  heard : ∀ k, (t.queue.slots k).valid = true → (t.life k).accepted = true →
    ⟨k, t.xlate.since k⟩ ∈ t.inflight ∨ (t.queue.slots k).accessDone = true

/-- The ledger and the flags of the queue tell the same. -/
structure LedgerInv (t : LsqLedger p) : Prop where
  queue : t.queue.QueueInv
  xlate : XlateInv t.xlate
  inflight : ∀ r, r ∈ t.inflight ↔
    ((t.queue.slots r.tag).accessSent && !(t.queue.slots r.tag).accessDone) = true ∧
      r.since = t.xlate.since r.tag
  accepted : ∀ k, (t.queue.slots k).valid = true →
    (t.life k).accepted = (t.queue.slots k).accessSent
  reports : ∀ k, (t.queue.slots k).valid = true →
    (t.life k).reports = (t.queue.slots k).storeResultSent.toNat
  cancelled : ∀ k, (t.queue.slots k).valid = true → (t.life k).cancelled =
    ((t.queue.slots k).killed && !(t.queue.slots k).storeResultSent)
  ticket : ∀ k, (t.queue.slots k).valid = true → (t.queue.slots k).id = (t.life k).ticket.id ∧
      (t.queue.slots k).retire = (t.life k).ticket.slot ∧
        (t.queue.slots k).info = (t.life k).ticket.info

section Step

variable {t : LsqLedger p} {i : LsqLedgerInput p} {k : Nat}

/-! ## Accesses under way -/

theorem mem_openAccesses (h : LedgerInv t) (r : LsqRequest) : r ∈ t.openAccesses i ↔
    (((t.queue.slots r.tag).accessSent && !(t.queue.slots r.tag).accessDone) ||
      t.queue.reqAt i.pins r.tag) ∧ r.since = t.xlate.since r.tag := by
  rw [openAccesses, or_eq_true, reqAt]
  cases t.queue.reqFire i.pins with
  | false =>
    rw [if_low, h.inflight, Bool.false_and, or_iff_left Bool.false_ne_true]
  | true =>
    rw [if_pos rfl, List.mem_append, h.inflight, List.mem_singleton, Bool.true_and,
      beq_iff_eq, or_and_right]
    apply or_congr_right
    constructor
    · intro hr
      rw [hr]
      exact ⟨rfl, rfl⟩
    · intro hr
      cases r
      obtain ⟨rfl, hsince⟩ := hr
      rw [LsqRequest.mk.injEq]
      exact ⟨rfl, hsince⟩

theorem openAccesses_unique (h : LedgerInv t) {r r' : LsqRequest}
    (hr : r ∈ t.openAccesses i) (hr' : r' ∈ t.openAccesses i) (htag : r.tag = r'.tag) : r = r' := by
  rw [mem_openAccesses h] at hr hr'
  cases r
  cases r'
  obtain rfl : _ = _ := htag
  rw [LsqRequest.mk.injEq]
  exact ⟨rfl, hr.2.trans hr'.2.symm⟩

theorem respFire_valid {s : LsqState p} {i : LsqInput p} (h : s.respFire i) : i.respValidI := by
  rw [respFire, and_eq_true] at h
  exact h.1

/-- The promises of the surroundings, as the queue sees them. -/
theorem Answers.answered (henv : Answers t i) (h : LedgerInv t) : t.queue.Answered i.pins := by
  constructor
  · exact henv.atomic
  · intro hfire
    have hopen := (mem_openAccesses h _).mp (henv.resp (respFire_valid hfire))
    have hund := hopen.1
    rw [or_eq_true, and_eq_true, Bool.not_eq_true'] at hund
    exact hund
  · intro hdone
    obtain ⟨hmem, hstr, hcach⟩ := henv.done hdone
    have hund := ((mem_openAccesses h _).mp hmem).1
    rw [or_eq_true, and_eq_true, Bool.not_eq_true'] at hund
    exact ⟨hstr, hcach, hund⟩
  · intro hfire hdone htag
    have hrsp := respFire_valid hfire
    exact henv.distinct hrsp hdone (openAccesses_unique h (henv.resp hrsp) (henv.done hdone).1 htag)

theorem Answers.channel (henv : Answers t i) : Channel t.xlate i.xlate := ⟨henv.atomic, henv.xlate⟩

theorem xlateSafe_of_releaseSafe (henv : t.queue.Answered i.pins) (h : LedgerInv t)
    (hsafe : t.queue.ReleaseSafe i.pins) : XlateSafe t.xlate i.xlate := by
  constructor
  · exact fun hfl => (hsafe.flush hfl).xlate
  · intro _ hfire
    have hok := h.queue.ok i.pins.respTagI
    rcases henv.resp hfire with ⟨hsent, -⟩ | hreq
    · exact hok.noXlate_of_done (hok.accessSent hsent).2.1
    · exact hok.noXlate_of_done (reqAt_flags hreq).2.2.2.2.2.1

theorem mem_inflightNext (henv : Answers t i) (h : LedgerInv t) (r : LsqRequest) :
    r ∈ t.inflightNext i ↔ t.queue.accessOpen i.pins r.tag ∧ r.since = t.xlate.since r.tag := by
  have hnamed : ∀ r' ∈ t.openAccesses i, r ∈ t.openAccesses i → (r = r' ↔ r'.tag = r.tag) := by
    intro r' hr' hr
    constructor
    · intro heq
      rw [heq]
    · intro htag
      exact openAccesses_unique h hr hr' htag.symm
  have hkeeps : r ∈ t.openAccesses i → t.unanswered i r = (!t.queue.accessAnswered i.pins r.tag &&
        (!i.pins.flushI || (t.queue.slots r.tag).store)) := by
    intro hr
    have hrsp : (t.queue.respFire i.pins && decide (r = respRequest i)) =
        (t.queue.respFire i.pins && i.pins.respTagI == r.tag) := by
      cases hfire : t.queue.respFire i.pins with
      | false => rfl
      | true =>
        rw [Bool.true_and, Bool.true_and, Bool.eq_iff_iff, decide_eq_true_iff, beq_iff_eq]
        exact hnamed _ (henv.resp (respFire_valid hfire)) hr
    have hdone : (i.pins.storeDoneValidI && decide (r = doneRequest i)) =
        (i.pins.storeDoneValidI && i.pins.storeDoneTagI == r.tag) := by
      cases hval : i.pins.storeDoneValidI with
      | false => rfl
      | true =>
        rw [Bool.true_and, Bool.true_and, Bool.eq_iff_iff, decide_eq_true_iff, beq_iff_eq]
        exact hnamed _ (henv.done hval).1 hr
    rw [unanswered, hrsp, hdone, accessAnswered, Bool.not_or]
  rw [inflightNext, List.mem_filter]
  constructor
  · intro hr
    obtain ⟨hopen, hkept⟩ := hr
    rw [hkeeps hopen] at hkept
    rw [mem_openAccesses h] at hopen
    rw [accessOpen, hopen.1, Bool.and_assoc, Bool.true_and]
    exact ⟨hkept, hopen.2⟩
  · intro hr
    obtain ⟨hacs, hsince⟩ := hr
    rw [accessOpen, Bool.and_assoc, and_eq_true] at hacs
    have hopen := (mem_openAccesses (i := i) h r).mpr ⟨hacs.1, hsince⟩
    exact ⟨hopen, by rw [hkeeps hopen, hacs.2]⟩

/-- The flags of the queue follow the accesses under way. -/
theorem step_access (henv : t.queue.Answered i.pins) (h : LedgerInv t)
    (hsafe : t.queue.ReleaseSafe i.pins) (k : Nat) :
    (((t.queue.step i.pins).slots k).accessSent &&
      !((t.queue.step i.pins).slots k).accessDone) = t.queue.accessOpen i.pins k := by
  cases hval : (t.queue.slots k).valid with
  | true =>
    rcases outcome henv hsafe (h.queue.ok k) (h.queue.bound k hval) hval
      h.queue.clear.not_forward (h.queue.quarantine k) with hkept | hfreed
    · exact hkept.access
    · rw [hfreed.access, hfreed.free.accessSent, Bool.false_and]
  | false =>
    have hnone : t.queue.accessOpen i.pins k = false := by
      rw [accessOpen, ((h.queue.ok k).free hval).accessSent, reqAt_of_invalid hval]
      rfl
    rw [hnone]
    cases hafter : ((t.queue.step i.pins).slots k).valid with
    | false =>
      rw [((ok_step henv.atomic (h.queue.ok k)).free hafter).accessSent, Bool.false_and]
    | true =>
    rcases h.queue.kept_or_alloc henv hsafe hafter with ⟨hold, -⟩ | ⟨a, store, halloc⟩
    · rw [hval] at hold
      cases hold
    · rw [(h.queue.allocated henv halloc).1, Bool.false_and]

theorem valid_of_accessOpen (h : LedgerInv t)
    (hacs : t.queue.accessOpen i.pins k) : (t.queue.slots k).valid := by
  rw [accessOpen, Bool.and_assoc, and_eq_true, or_eq_true, and_eq_true] at hacs
  rcases hacs.1 with hsent | hreq
  · exact ((h.queue.ok k).accessSent hsent.1).1
  · exact (reqAt_flags hreq).1

/-! ## Lives -/

theorem resultSent_of_resultAt {s : LsqState p} {i : LsqInput p} (hok : (s.slots k).Ok)
    (h : s.resultAt i k) : (s.slots k).storeResultSent = false := by
  by_contra hcon
  obtain ⟨hsent, hstr, hcach⟩ := hok.resultSent (resultAt_flags h).1 (by simpa using hcon)
  have hpost : s.posted i k := by
    rw [posted, hstr, hcach, hsent]
    rfl
  exact hcon ((resultIsPostedStore_of_resultAt hok h).2 hpost)

theorem atomicDoneAt_of_valid {s : LsqState p} {i : LsqInput p}
    (hval : ((s.step i).slots k).valid) : atomicDoneAt i k = false := by
  by_contra hcon
  rw [Bool.not_eq_false, atomicDoneAt] at hcon
  have hgone : ∀ slot : LsqSlot p, (updateAtomicDone i k slot).valid = false := by
    intro slot
    rw [updateAtomicDone, hcon, if_pos rfl]
  cases hfl : i.flushI with
  | true =>
    rw [step_flush hfl, hgone] at hval
    cases hval
  | false =>
    rw [step_noFlush hfl] at hval
    have hbef := valid_of_updateSquash _ _ _ _ hval
    rw [hgone] at hbef
    cases hbef

theorem lifeNext_alloc {a : LsqAlloc p} {store : Bool}
    (halloc : t.queue.allocInto i.pins k = some (a, store)) :
    t.lifeNext i k = ⟨a, false, 0, false⟩ := by
  rw [lifeNext, halloc]

/-- An entry is reported at most once, and never after it was cancelled. -/
theorem lifeNext_valid (h : LedgerInv t) (hval : (t.queue.slots k).valid) :
    (t.lifeNext i k).ticket = (t.life k).ticket ∧ (t.lifeNext i k).accepted =
        ((t.queue.slots k).accessSent || t.queue.reqAt i.pins k) ∧ (t.lifeNext i k).reports =
        ((t.queue.slots k).storeResultSent || t.queue.resultAt i.pins k).toNat ∧
      (t.lifeNext i k).cancelled = (((t.queue.slots k).killed || (t.queue.cancels i.pins k
          ((t.queue.slots k).accessSent || t.queue.reqAt i.pins k) &&
            !LsqState.atomicDoneAt i.pins k)) &&
          !((t.queue.slots k).storeResultSent || t.queue.resultAt i.pins k)) := by
  rw [lifeNext, allocInto_of_valid hval]
  simp only [h.accepted k hval, h.reports k hval, h.cancelled k hval]
  refine ⟨trivial, trivial, ?_, ?_⟩
  · cases hres : t.queue.resultAt i.pins k with
    | false => rw [Bool.or_false, Bool.toNat_false, Nat.add_zero]
    | true =>
      rw [resultSent_of_resultAt (h.queue.ok k) hres]
      rfl
  · cases hres : t.queue.resultAt i.pins k with
    | false => cases (t.queue.slots k).storeResultSent <;> simp
    | true =>
      rw [resultSent_of_resultAt (h.queue.ok k) hres, (resultAt_flags hres).2.1]
      simp

theorem LedgerInv.step (h : LedgerInv t) (hanswers : Answers t i)
    (hsafe : t.queue.ReleaseSafe i.pins) : LedgerInv ((lsqLedger p).step t i) := by
  have henv := hanswers.answered h
  have hcases := fun k => h.queue.kept_or_alloc (k := k) henv hsafe
  constructor
  · exact h.queue.step henv hsafe
  · exact h.xlate.step hanswers.channel (xlateSafe_of_releaseSafe henv h hsafe)
  · intro r
    change r ∈ t.inflightNext i ↔ (((t.queue.step i.pins).slots r.tag).accessSent &&
        !((t.queue.step i.pins).slots r.tag).accessDone) ∧ r.since = t.xlate.sinceNext i.xlate r.tag
    rw [mem_inflightNext hanswers h, step_access henv h hsafe]
    apply and_congr_right
    intro hacs
    have hnone := allocInto_of_valid (i := i.pins) (valid_of_accessOpen h hacs)
    change t.xlate.queue.allocInto i.xlate.pins r.tag = none at hnone
    rw [sinceNext, hnone]
    rfl
  · intro k hval
    change (t.lifeNext i k).accepted = ((t.queue.step i.pins).slots k).accessSent
    rcases hcases k hval with ⟨hold, hkept⟩ | ⟨a, store, halloc⟩
    · rw [(lifeNext_valid h hold).2.1, hkept.accessSent]
    · rw [lifeNext_alloc halloc, (h.queue.allocated henv halloc).1]
  · intro k hval
    change (t.lifeNext i k).reports = ((t.queue.step i.pins).slots k).storeResultSent.toNat
    rcases hcases k hval with ⟨hold, hkept⟩ | ⟨a, store, halloc⟩
    · rw [(lifeNext_valid h hold).2.2.1, hkept.resultSent]
    · rw [lifeNext_alloc halloc, (h.queue.allocated henv halloc).2.1]
      rfl
  · intro k hval
    change (t.lifeNext i k).cancelled = (((t.queue.step i.pins).slots k).killed &&
      !((t.queue.step i.pins).slots k).storeResultSent)
    rcases hcases k hval with ⟨hold, hkept⟩ | ⟨a, store, halloc⟩
    · have hamo : atomicDoneAt i.pins k = false := atomicDoneAt_of_valid hval
      rw [(lifeNext_valid h hold).2.2.2, hkept.resultSent, hkept.killed, hamo,
        Bool.not_false, Bool.and_true]
    · rw [lifeNext_alloc halloc, (h.queue.allocated henv halloc).2.2]
      rfl
  · intro k hval
    change ((t.queue.step i.pins).slots k).op.id = (t.lifeNext i k).ticket.id ∧
      ((t.queue.step i.pins).slots k).op.retire = (t.lifeNext i k).ticket.slot ∧
        ((t.queue.step i.pins).slots k).op.info = (t.lifeNext i k).ticket.info
    rw [step_op]
    rcases hcases k hval with ⟨hold, -⟩ | ⟨a, store, halloc⟩
    · rw [afterAlloc_none (allocInto_of_valid hold), (lifeNext_valid h hold).1]
      exact h.ticket k hold
    · rw [afterAlloc_some halloc, lifeNext_alloc halloc]
      exact ⟨rfl, rfl, rfl⟩

/-! ## What one cycle does -/

theorem LedgerInv.reports_of_resultAt (h : LedgerInv t)
    (hres : t.queue.resultAt i.pins k) : Reports t i k := by
  obtain ⟨hval, hkill, -⟩ := resultAt_flags hres
  obtain ⟨hid, hslot, hinfo⟩ := h.ticket k hval
  have hidx : t.queue.resultIndex i.pins = k := by
    rw [resultAt, and_eq_true, beq_iff_eq] at hres
    exact hres.2
  constructor
  · exact hval
  · rw [h.reports k hval, resultSent_of_resultAt (h.queue.ok k) hres]
    rfl
  · rw [h.cancelled k hval, hkill, Bool.false_and]
  · rw [resultIdO, hidx, hid]
  · rw [resultSlotO, hidx, hslot]
  · rw [resultMetaO, hidx, hinfo]

/-- The slots with nothing under way are not named by any open request. -/
theorem LedgerInv.unnamed (h : LedgerInv t) (hfree : (t.queue.slots k).Free) :
    ∀ r ∈ t.xlate.pending ++ t.inflight, r.tag ≠ k := by
  intro r hr htag
  rw [List.mem_append, h.xlate.pending, h.inflight, htag] at hr
  rcases hr with ⟨hsent, -⟩ | ⟨hsent, -⟩
  · change (t.queue.slots k).xlateSent at hsent
    rw [hfree.xlateSent] at hsent
    cases hsent
  · rw [hfree.accessSent, Bool.false_and] at hsent
    cases hsent

theorem LedgerInv.leaves (h : LedgerInv t) (hanswers : Answers t i)
    (hsafe : t.queue.ReleaseSafe i.pins) (hval : (t.queue.slots k).valid)
    (hgone : ((t.queue.step i.pins).slots k).valid = false) : Leaves t i k := by
  have henv := hanswers.answered h
  have hfreed : t.queue.Freed i.pins k := by
    rcases outcome henv hsafe (h.queue.ok k) (h.queue.bound k hval) hval
      h.queue.clear.not_forward (h.queue.quarantine k) with hkept | hfreed
    · rw [hkept.valid] at hgone
      cases hgone
    · exact hfreed
  constructor
  · exact (h.step hanswers hsafe).unnamed hfreed.free
  · cases hamo : atomicDoneAt i.pins k with
    | true => exact .inl rfl
    | false =>
      right
      obtain ⟨-, -, hreports, hcancelled⟩ := lifeNext_valid (i := i) h hval
      rw [hamo, Bool.not_false, Bool.and_true] at hcancelled
      rw [hreports, hcancelled]
      cases hreported : (t.queue.slots k).storeResultSent || t.queue.resultAt i.pins k with
      | true =>
        right
        rw [Bool.not_true, Bool.and_false]
        exact ⟨rfl, rfl⟩
      | false =>
        left
        rw [Bool.not_false, Bool.and_true, or_eq_true]
        refine ⟨?_, rfl⟩
        rcases hfreed.reason with hdone | hkill | hcancels | hres
        · rw [hamo] at hdone
          cases hdone
        · exact .inl hkill
        · exact .inr hcancels
        · rw [hreported] at hres
          cases hres

theorem placed_of_allocInto (henv : t.queue.Answered i.pins) (h : LedgerInv t)
    {a : LsqAlloc p} {store : Bool}
    (halloc : t.queue.allocInto i.pins k = some (a, store)) :
    (t.queue.slots k).valid = false ∧ ((t.queue.step i.pins).slots k).valid := by
  refine ⟨(allocInto_some halloc).2.2.2.1, ?_⟩
  exact congrArg LsqCtl.valid (step_alloc henv.atomic (h.queue.ok k) halloc)

/-! ## What holds between cycles -/

theorem LedgerInv.owners (h : LedgerInv t) : ∀ r ∈ t.xlate.pending ++ t.inflight,
      (t.queue.slots r.tag).valid ∧ r.since = t.xlate.since r.tag := by
  intro r hr
  rw [List.mem_append, h.xlate.pending, h.inflight, and_eq_true] at hr
  rcases hr with ⟨hsent, hsince⟩ | ⟨hsent, hsince⟩
  · exact ⟨((h.xlate.ok r.tag).xlateSent hsent).1, hsince⟩
  · exact ⟨((h.queue.ok r.tag).accessSent hsent.1).1, hsince⟩

/-- An entry that has completed, or was cancelled, keeps its slot only for an answer. -/
theorem LedgerInv.held (h : LedgerInv t) (hval : (t.queue.slots k).valid) :
    ((t.life k).cancelled = false ∧ (t.life k).reports = 0) ∨
      ∃ r ∈ t.xlate.pending ++ t.inflight, r.tag = k := by
  have hinfl : ((t.queue.slots k).accessSent && !(t.queue.slots k).accessDone) →
      ∃ r ∈ t.xlate.pending ++ t.inflight, r.tag = k := by
    intro hacs
    refine ⟨⟨k, t.xlate.since k⟩, ?_, rfl⟩
    rw [List.mem_append, h.inflight]
    exact .inr ⟨hacs, rfl⟩
  rw [h.cancelled k hval, h.reports k hval]
  cases hres : (t.queue.slots k).storeResultSent with
  | true =>
    right
    apply hinfl
    rw [((h.queue.ok k).resultSent hval hres).1, (h.queue.ok k).oneHalf hval hres]
    rfl
  | false =>
  cases hkill : (t.queue.slots k).killed with
  | false => exact .inl ⟨rfl, rfl⟩
  | true =>
    right
    rcases h.queue.quarantine k hkill with hsent | hacs
    · refine ⟨⟨k, t.xlate.since k⟩, ?_, rfl⟩
      rw [List.mem_append, h.xlate.pending]
      exact .inl ⟨hsent, rfl⟩
    · exact hinfl hacs

theorem LedgerInv.heard (h : LedgerInv t) (hval : (t.queue.slots k).valid)
    (haccepted : (t.life k).accepted) :
    ⟨k, t.xlate.since k⟩ ∈ t.inflight ∨ (t.queue.slots k).accessDone := by
  rw [h.accepted k hval] at haccepted
  cases hdone : (t.queue.slots k).accessDone with
  | true => exact .inr rfl
  | false =>
    left
    rw [h.inflight, haccepted, hdone]
    exact ⟨rfl, rfl⟩

theorem LedgerInv.reset (hinit : (lsqLedger p).Init t) : LedgerInv t := by
  obtain ⟨hxl, hinfl⟩ := hinit
  have hqueue : t.queue = .reset := hxl.1
  have hnone : ∀ k, (t.queue.slots k).valid ≠ true := by
    intro k hval
    rw [hqueue] at hval
    cases hval
  constructor
  · rw [hqueue]
    exact .reset
  · exact .reset hxl
  · intro r
    simp [hinfl, hqueue, LsqState.reset]
  · exact fun k hval => absurd hval (hnone k)
  · exact fun k hval => absurd hval (hnone k)
  · exact fun k hval => absurd hval (hnone k)
  · exact fun k hval => absurd hval (hnone k)

end Step

/-- In every run whose events never meet in a way that the slot update does not provide
for, the ledger is kept in every cycle. -/
theorem exactlyOnce_of_safe {past : Past (LsqLedger p) (LsqLedgerInput p)}
    {t : LsqLedger p}
    (hrun : Run (lsqLedger p)
      (cycleEnv fun t i => Answers t i ∧ t.queue.ReleaseSafe i.pins) past t) :
    ExactlyOnce past t := by
  have hall : LedgerInv t ∧ ∀ x ∈ past, LedgerInv x.1 ∧ Answers x.1 x.2 ∧
      x.1.queue.ReleaseSafe x.2.pins := by
    apply Run.invariant (P := fun past t => LedgerInv t ∧ ∀ x ∈ past, _) ?_ ?_ hrun
    · intro t hinit
      exact ⟨.reset hinit, by simp⟩
    · intro past t i _ henv hold
      refine ⟨hold.1.step henv.1 henv.2, fun x hx => ?_⟩
      rcases List.mem_cons.mp hx with rfl | hx
      · exact ⟨hold.1, henv⟩
      · exact hold.2 x hx
  obtain ⟨hinv, hpast⟩ := hall
  constructor
  · intro x hx k a store halloc
    obtain ⟨h, hanswers, -⟩ := hpast x hx
    exact placed_of_allocInto (hanswers.answered h) h halloc
  · intro x hx k hreq
    obtain ⟨h, -, -⟩ := hpast x hx
    obtain ⟨hvalid, hkilled, -, -, -, -, hsent⟩ := reqAt_flags hreq
    rw [h.accepted k hvalid, h.cancelled k hvalid, hsent, hkilled]
    exact ⟨rfl, rfl⟩
  · intro x hx k hresult
    exact (hpast x hx).1.reports_of_resultAt hresult
  · intro x hx k hvalid hgone
    obtain ⟨h, hanswers, hsafe⟩ := hpast x hx
    exact h.leaves hanswers hsafe hvalid hgone
  · exact hinv.owners
  · exact fun k hvalid => hinv.held hvalid
  · exact fun k hvalid haccepted => hinv.heard hvalid haccepted

/-! ## Two releases in one cycle -/

instance (t : LsqLedger p) (i : LsqLedgerInput p) : Decidable (Answers t i) :=
  decidable_of_iff
    (t.queue.AtomicPorts i.pins ∧
      (i.pins.xlateRespValidI = true → response i.xlate ∈ t.xlate.openRequests i.xlate) ∧
      (i.pins.respValidI = true → respRequest i ∈ t.openAccesses i) ∧
      (i.pins.storeDoneValidI = true → doneRequest i ∈ t.openAccesses i ∧
        (t.queue.slots i.pins.storeDoneTagI).store = true ∧
          (t.queue.slots i.pins.storeDoneTagI).cacheable = true) ∧
      (i.pins.respValidI = true → i.pins.storeDoneValidI = true → respRequest i ≠ doneRequest i))
    ⟨fun h => ⟨h.1, h.2.1, h.2.2.1, h.2.2.2.1, h.2.2.2.2⟩,
      fun h => ⟨h.atomic, h.xlate, h.resp, h.done, h.distinct⟩⟩

def emptyLedger : LsqLedger smallLsq where
  xlate := ⟨.reset, 0, fun _ => 0, []⟩
  life := fun _ => ⟨noAlloc _, false, 0, false⟩
  inflight := []

/-- A cycle in which the channels answer entries that were allocated in these
cycles. -/
def cycle (pins : LsqInput smallLsq) (xlate resp done : Nat) : LsqLedgerInput smallLsq :=
  ⟨⟨pins, xlate⟩, resp, done⟩

/-- A store is accepted and reported, a second one follows, and then the loads behind
them. -/
def twoStores : List (LsqLedgerInput smallLsq) :=
  [cycle (((quiet _).withStore 0 0x1000 0x11).translating 4 0x2000) 0 0 0,
    cycle (((quiet _).withStore 1 0x1008 0x22).translating 5 0x2008 |>.headAt 0)
      1 0 0, cycle (((quiet _).withLoad 2 0x1010).translating 0 0x2010 |>.headAt 1)
      2 0 0]

/-- The first store is released by its response, the second by a store-done. -/
def released (first second : Bool) : LsqLedgerInput smallLsq :=
  cycle
    { quiet _ with
      respValidI := first
      respTagI := 4
      storeDoneValidI := second
      storeDoneTagI := 5 } 0 0 1

/-- A squash of the load behind the stores, and its late answer. -/
def squashedLoad : List (LsqLedgerInput smallLsq) :=
  [cycle { quiet _ with squashYoungerI := true, squashIdI := 1 } 0 0 0,
    cycle { quiet _ with respValidI := true, respTagI := 0 } 0 2 0]

theorem exactlyOnce_of_safe_released :
    ExactlyOnce
      (exec (lsqLedger smallLsq) [] emptyLedger
        (twoStores ++ released true false :: squashedLoad ++ [released false true])).1
      (exec (lsqLedger smallLsq) [] emptyLedger
        (twoStores ++ released true false :: squashedLoad ++ [released false true])).2 :=
  exactlyOnce_of_safe (exec_run_decide _ ⟨⟨rfl, rfl⟩, rfl⟩ (by decide +kernel))

/-- The queue takes one release in a cycle, and loses the other one. -/
theorem exactlyOnce_fails :
    ¬ ∀ (p : LsqParams) past t,
      Run (lsqLedger p) (cycleEnv Answers) past t → ExactlyOnce past t := by
  intro honce
  have hheld := (honce smallLsq _ _ (exec_run_decide (twoStores ++ [released true true])
    (s := emptyLedger) ⟨⟨rfl, rfl⟩, rfl⟩ (by decide +kernel))).held 4
  revert hheld
  decide +kernel

end LsqLedger

end OpenRV64
