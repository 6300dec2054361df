/-
What the slots of the vector load/store unit, the commands that live and the requests in
flight have to do with each other, and that every clear cycle keeps it.
-/
import OpenRV64.VecLsuLedger

namespace OpenRV64

open VecLsuState VecMemRequest
open Bool (of_not_eq_false and_eq_true not_eq_true' or_eq_false_iff or_eq_true)

namespace VecLsuParams

variable (p : VecLsuParams)

theorem tag_inj {k k' b b' : ℕ} (hb : b < p.maxBeats) (hb' : b' < p.maxBeats)
    (h : k * p.maxBeats + b = k' * p.maxBeats + b') : k = k' ∧ b = b' := by
  have hpos := p.maxBeats_pos
  have hdiv := congrArg (· / p.maxBeats) h
  have hmod := congrArg (· % p.maxBeats) h
  simp only [Nat.mul_comm _ p.maxBeats, Nat.mul_add_div hpos, Nat.mul_add_mod,
    Nat.div_eq_of_lt hb, Nat.div_eq_of_lt hb', Nat.mod_eq_of_lt hb,
    Nat.mod_eq_of_lt hb'] at hdiv hmod
  exact ⟨by omega, hmod⟩

theorem tag_lt {k b : ℕ} (hk : k < p.queueDepth) (hb : b < p.maxBeats) :
    k * p.maxBeats + b < p.queueDepth * p.maxBeats := by
  have hle : (k + 1) * p.maxBeats ≤ p.queueDepth * p.maxBeats := Nat.mul_le_mul_right _ hk
  rw [Nat.succ_mul] at hle
  omega

end VecLsuParams

namespace VecLsuState

variable {p : VecLsuParams} {s : VecLsuState p} {i : VecLsuInput p} {k b : ℕ}

theorem memReqTagO_eq (h : s.memReqFire i) :
    s.memReqTagO i = s.requestSlot i * p.maxBeats + s.requestBeat i := by
  obtain ⟨hk, hb, -, -⟩ := memReqFire_spec h
  exact Nat.mod_eq_of_lt ((p.tag_lt hk hb).trans_le p.tag_wide)

theorem working_iff {q : VecLsuSlot p} : q.working ↔
    q.valid ∧ q.killed = false ∧ q.fault = false ∧ q.unsupported = false := by
  simp [VecLsuSlot.working, and_assoc]

theorem requestable_spec {q : VecLsuSlot p} (h : q.requestable i b) :
    q.working ∧ q.beatSent b = false ∧ q.beatDone b = false ∧
      (q.op = .load ∨ (q.op = .store ∧ q.gatherDone ∧ (q.ordered ∨ q.atHead i))) := by
  simp only [VecLsuSlot.requestable, VecLsuSlot.eligible, and_eq_true, or_eq_true,
    not_eq_true', VecLsuOp.beq_eq_decide, decide_eq_true_eq] at h
  obtain ⟨⟨⟨hwork, hop⟩, hsent⟩, hdone⟩ := h
  exact ⟨hwork, hsent, hdone, hop.imp_right fun h => ⟨h.1.1, h.1.2, h.2⟩⟩

theorem valid_of_left (hval : (s.slot k).valid) (hb : b < p.maxBeats)
    (hleft : (s.slot k).beatDone b = false) : (s.slotNext i k).valid := by
  have hnot : (s.slot k).allDone = false := by
    by_contra h
    have := allDone_iff.mp (of_not_eq_false h) b hb
    rw [hleft] at this
    cases this
  have hcom : s.commits i k = false := by
    by_contra h
    obtain ⟨hc, -, hslot⟩ := commits_spec (of_not_eq_false h)
    have := (retireCommitSlot_spec hc).2.2.2.2.2.2.1
    rw [hslot, hnot] at this
    cases this
  simp [slotNext, hcom, drains, hnot, hval]

/-- A slot holds a command after a cycle that it got in it, or that it held and did not
give back. -/
theorem valid_next_cases (h : (s.slotNext i k).valid) :
    s.promotes i k ∨ ((s.slot k).valid ∧ s.commits i k = false ∧ s.drains k = false) := by
  have hval : (if s.commits i k || s.drains k then false
    else if s.promotes i k then true else (s.slot k).valid) = true := h
  cases hcom : s.commits i k with
  | true => simp [hcom] at hval
  | false =>
  cases hdr : s.drains k with
  | true => simp [hdr] at hval
  | false =>
    cases hprom : s.promotes i k with
    | true => exact .inl rfl
    | false => exact .inr ⟨by simpa [hcom, hdr, hprom] using hval, rfl, rfl⟩

section

variable (hval : (s.slot k).valid)

include hval

/-- What a slot that holds a command keeps of it. -/
theorem slotNext_kept :
    (s.slotNext i k).tag = (s.slot k).tag ∧ (s.slotNext i k).op = (s.slot k).op ∧
      (s.slotNext i k).addr = (s.slot k).addr ∧ (s.slotNext i k).vreg = (s.slot k).vreg ∧
      (s.slotNext i k).lmul = (s.slot k).lmul ∧
      (s.slotNext i k).unsupported = (s.slot k).unsupported := by
  simp [slotNext, not_promotes hval]

theorem beatDone_mono (hdone : (s.slot k).beatDone b) : (s.slotNext i k).beatDone b := by
  simp [slotNext, not_promotes hval, hdone]

theorem beatDone_cases (hdone : (s.slotNext i k).beatDone b) :
    (s.slot k).beatDone b ∨ (s.kills i k ∧ (s.slot k).beatSent b = false) ∨
      (s.takes i k b ∧ (i.memRespRetryI = false ∨ (s.slot k).killed)) ∨
      (s.settles i k ∧ i.memRespErrorI ∧ (s.slot k).beatSent b = false) := by
  simp only [slotNext, not_promotes hval] at hdone
  cases hkill : s.kills i k && !(s.slot k).beatSent b with
  | true =>
    rw [and_eq_true, not_eq_true'] at hkill
    exact .inr (.inl hkill)
  | false =>
  cases htake : s.takes i k b && (!i.memRespRetryI || (s.slot k).killed) with
  | true =>
    rw [and_eq_true, or_eq_true, not_eq_true'] at htake
    exact .inr (.inr (.inl htake))
  | false =>
  cases herr : s.settles i k && i.memRespErrorI && !(s.slot k).beatSent b with
  | true =>
    rw [and_eq_true, and_eq_true, not_eq_true'] at herr
    exact .inr (.inr (.inr ⟨herr.1.1, herr.1.2, herr.2⟩))
  | false => exact .inl (by simpa [hkill, htake, herr] using hdone)

theorem beatSent_cases (hsent : (s.slotNext i k).beatSent b) :
    s.sends i k b ∨ (s.slot k).beatSent b := by
  simp only [slotNext, not_promotes hval] at hsent
  cases hsends : s.sends i k b with
  | true => exact .inl rfl
  | false =>
    right
    by_contra h
    simp [hsends, Bool.eq_false_of_not_eq_true h] at hsent

end

end VecLsuState

namespace VecLsuLedger

variable {p : VecLsuParams}

/-- Request `r` in flight is for beat `b` of the command in slot `k`. -/
structure ForBeat (t : VecLsuLedger p) (r : VecMemRequest p) (k b : ℕ) : Prop where
  slot_lt : k < p.queueDepth
  beat_lt : b < p.maxBeats
  tag : r.tag = k * p.maxBeats + b
  command : r.command = t.owner k
  beat : r.beat = b
  valid : (t.core.slot k).valid = true
  sent : (t.core.slot k).beatSent b = true
  left : (t.core.slot k).beatDone b = false
  write : r.write = ((t.core.slot k).op == .store)

/-- The requests in flight are those of the beats that are sent and not done. -/
structure Flights (t : VecLsuLedger p) : Prop where
  forBeat : ∀ r ∈ t.inFlight, ∃ k b, t.ForBeat r k b
  outstanding : ∀ k < p.queueDepth, (t.core.slot k).valid = true → ∀ b < p.maxBeats,
    (t.core.slot k).beatSent b = true → (t.core.slot k).beatDone b = false →
      ∃ r ∈ t.inFlight, r.tag = k * p.maxBeats + b
  once : (t.inFlight.map tag).Nodup

section

variable {t : VecLsuLedger p} {x : VecLsuCycle p} {k b : ℕ}

theorem answered_spec {r : VecMemRequest p} (h : t.answered x = some r) :
    x.port.memRespValidI ∧ t.inFlight[x.answers]? = some r ∧ r ∈ t.inFlight := by
  rw [answered] at h
  cases hval : x.port.memRespValidI with
  | false => simp [hval] at h
  | true =>
    rw [hval, if_pos rfl] at h
    exact ⟨rfl, h, List.mem_of_getElem? h⟩

theorem Served.answer (hserved : t.Served x) (hval : x.port.memRespValidI) :
    ∃ r, t.answered x = some r ∧ r.tag = x.port.memRespTagI := by
  have h := (hserved.2 hval).1
  rw [Option.any_eq_true] at h
  obtain ⟨r, hr, htag⟩ := h
  exact ⟨r, hr, beq_iff_eq.mp htag⟩

namespace Flights

variable (h : t.Flights) (hserved : t.Served x)
include h hserved

/-- A response names the beat of the request that it answers, and the beat takes it. -/
theorem takes_of_answered {r : VecMemRequest p} (hr : t.answered x = some r) :
    ∃ k b, t.ForBeat r k b ∧ t.core.takes x.port k b := by
  obtain ⟨hval, -, hmem⟩ := answered_spec hr
  obtain ⟨k, b, hfor⟩ := h.forBeat r hmem
  obtain ⟨r', hr', htag⟩ := hserved.answer hval
  rw [hr] at hr'
  cases hr'
  have hplc : x.port.memRespTagI = k * p.maxBeats + b := htag.symm.trans hfor.tag
  have hpos := p.maxBeats_pos
  have hslot : responseSlot x.port = k := by
    rw [responseSlot, hplc, Nat.mul_comm, Nat.mul_add_div hpos,
      Nat.div_eq_of_lt hfor.beat_lt, Nat.add_zero]
  have hbeat : responseBeat x.port = b := by
    rw [responseBeat, hplc, Nat.mul_comm, Nat.mul_add_mod, Nat.mod_eq_of_lt hfor.beat_lt]
  refine ⟨k, b, hfor, takes_iff.mpr ⟨?_, hslot, hbeat⟩⟩
  have hlt := p.tag_lt hfor.slot_lt hfor.beat_lt
  simp [responseUse, responseExpected, hval, hslot, hbeat, hfor.valid,
    hfor.sent, hfor.left, hplc, hlt]

/-- The beat that takes a response is the one whose request is answered. -/
theorem answered_of_takes (htake : t.core.takes x.port k b) :
    ∃ r, t.answered x = some r ∧ t.ForBeat r k b := by
  obtain ⟨hval, hk, hb, htag, -⟩ := takes_spec htake
  obtain ⟨r, hr, hrtag⟩ := hserved.answer hval
  obtain ⟨k', b', hfor⟩ := h.forBeat r (answered_spec hr).2.2
  obtain ⟨rfl, rfl⟩ := p.tag_inj hb hfor.beat_lt (htag.symm.trans (hrtag.symm.trans hfor.tag))
  exact ⟨r, hr, hfor⟩

theorem stays_iff {r : VecMemRequest p} :
    r ∈ (if x.port.memRespValidI then t.inFlight.eraseIdx x.answers else t.inFlight) ↔
      r ∈ t.inFlight ∧ ∀ r', t.answered x = some r' → r.tag ≠ r'.tag := by
  cases hval : x.port.memRespValidI with
  | false => simp [answered, hval]
  | true =>
    obtain ⟨r₀, hr₀, -⟩ := hserved.answer hval
    have hget := (answered_spec hr₀).2.1
    rw [if_pos rfl, hr₀, List.mem_eraseIdx_iff_getElem?]
    constructor
    · rintro ⟨n, hn, hnr⟩
      refine ⟨List.mem_of_getElem? hnr, ?_⟩
      rintro r' hr' htag
      cases hr'
      have hmap : (t.inFlight.map tag)[n]? = (t.inFlight.map tag)[x.answers]? := by
        rw [List.getElem?_map, List.getElem?_map, hnr, hget]
        exact congrArg some htag
      have hlt : n < (t.inFlight.map tag).length := by
        rw [List.length_map]
        exact (List.getElem?_eq_some_iff.mp hnr).1
      exact hn ((List.getElem?_inj hlt h.once).mp hmap)
    · rintro ⟨hmem, hne⟩
      obtain ⟨n, hn⟩ := List.getElem?_of_mem hmem
      refine ⟨n, ?_, hn⟩
      rintro rfl
      rw [hget] at hn
      cases hn
      exact hne r rfl rfl

/-- A beat in flight that is not answered stays in flight. -/
theorem forBeat_stays {r : VecMemRequest p} (hfor : t.ForBeat r k b)
    (hstays : ∀ r', t.answered x = some r' → r.tag ≠ r'.tag) : (t.step x).ForBeat r k b := by
  have hkept := slotNext_kept (i := x.port) hfor.valid
  have htake : t.core.takes x.port k b = false := by
    by_contra htake
    obtain ⟨r', hr', hfor'⟩ := h.answered_of_takes hserved (of_not_eq_false htake)
    exact hstays r' hr' (hfor.tag.trans hfor'.tag.symm)
  have hprom := not_promotes (i := x.port) hfor.valid
  refine ⟨hfor.slot_lt, hfor.beat_lt, hfor.tag, ?_, hfor.beat,
    valid_of_left hfor.valid hfor.beat_lt hfor.left, ?_, ?_, ?_⟩
  · rw [hfor.command]
    simp [step, hprom]
  · show (t.core.slotNext x.port k).beatSent b
    simp [slotNext, htake, hprom, hfor.sent]
  · show (t.core.slotNext x.port k).beatDone b = false
    simp [slotNext, htake, hprom, hfor.sent, hfor.left]
  · rw [hfor.write]
    exact congrArg (· == VecLsuOp.store) hkept.2.1.symm

omit hserved in
/-- An accepted request is for the beat that it was made for. -/
theorem forBeat_offered (hclr : t.Clear x) (hfire : t.core.memReqFire x.port) :
    (t.step x).ForBeat (t.offered x) (t.core.requestSlot x.port) (t.core.requestBeat x.port) ∧
      ∀ r ∈ t.inFlight, r.tag ≠ (t.offered x).tag := by
  obtain ⟨hk, hb, hreq, hsends⟩ := memReqFire_spec hfire
  obtain ⟨hwork, hsent, hleft, -⟩ := requestable_spec hreq
  have hval := (working_iff.mp hwork).1
  obtain ⟨hkill, herr⟩ := hclr.1 _ hk _ hb hsends
  have hprom := not_promotes (i := x.port) hval
  have htake : t.core.takes x.port (t.core.requestSlot x.port) (t.core.requestBeat x.port) =
      false := by
    by_contra htake
    have := (takes_spec (of_not_eq_false htake)).2.2.2.2.2.1
    rw [hsent] at this
    cases this
  refine ⟨⟨hk, hb, memReqTagO_eq hfire, ?_, rfl, valid_of_left hval hb hleft, ?_, ?_, ?_⟩, ?_⟩
  · simp [offered, step, hprom]
  · show (t.core.slotNext x.port _).beatSent _
    simp [slotNext, htake, hsends]
  · show (t.core.slotNext x.port _).beatDone _ = false
    simp [slotNext, htake, hprom, hkill, herr, hleft]
  · have hop := (slotNext_kept (i := x.port) hval).2.1
    have hshow : t.core.memReqValidO x.port := (and_eq_true _ _ ▸ hfire).1
    show (t.core.memReqValidO x.port && _) = ((t.core.slotNext x.port _).op == .store)
    rw [hop, hshow, Bool.true_and]
  · intro r hr htag
    obtain ⟨k', b', hfor⟩ := h.forBeat r hr
    obtain ⟨rfl, rfl⟩ := p.tag_inj hfor.beat_lt hb
      (hfor.tag.symm.trans (htag.trans (memReqTagO_eq hfire)))
    have := hfor.sent
    rw [hsent] at this
    cases this

theorem mem_step {r : VecMemRequest p} : r ∈ (t.step x).inFlight ↔
    (r ∈ t.inFlight ∧ ∀ r', t.answered x = some r' → r.tag ≠ r'.tag) ∨
      (t.core.memReqFire x.port ∧ r = t.offered x) := by
  show r ∈ _ ++ (if t.core.memReqFire x.port then [t.offered x] else []) ↔ _
  rw [List.mem_append, h.stays_iff hserved]
  cases t.core.memReqFire x.port <;> simp

theorem step (hclr : t.Clear x) : (t.step x).Flights where
  forBeat r hr := by
    rcases (h.mem_step hserved).mp hr with ⟨hmem, hstays⟩ | ⟨hfire, rfl⟩
    · obtain ⟨k, b, hfor⟩ := h.forBeat r hmem
      exact ⟨k, b, h.forBeat_stays hserved hfor hstays⟩
    · exact ⟨_, _, (h.forBeat_offered hclr hfire).1⟩
  outstanding k hk hval b hb hsent hleft := by
    rcases valid_next_cases hval with hprom | ⟨hold, -, -⟩
    · have hemp := (promotes_spec hprom).2.2.2.2
      have hnosend : t.core.sends x.port k b = false := by
        by_contra hsends
        have hwork := (requestable_spec (sends_spec (of_not_eq_false hsends)).2.2).1
        rw [(working_iff.mp hwork).1] at hemp
        cases hemp
      have hno : (t.core.slotNext x.port k).beatSent b = false := by
        simp [slotNext, hnosend, hprom]
      exact absurd_low (hno.symm.trans hsent)
    rcases beatSent_cases hold hsent with hsends | hwas
    · obtain ⟨hfire, rfl, rfl⟩ := sends_iff.mp hsends
      exact ⟨t.offered x, (h.mem_step hserved).mpr (.inr ⟨hfire, rfl⟩), memReqTagO_eq hfire⟩
    have hwasLeft : (t.core.slot k).beatDone b = false := by
      by_contra hdone
      have := beatDone_mono (i := x.port) hold (of_not_eq_false hdone)
      exact absurd_low (hleft.symm.trans this)
    obtain ⟨r, hr, htag⟩ := h.outstanding k hk hold b hb hwas hwasLeft
    refine ⟨r, (h.mem_step hserved).mpr (.inl ⟨hr, ?_⟩), htag⟩
    intro r' hr' heq
    obtain ⟨k', b', hfor, htake⟩ := h.takes_of_answered hserved hr'
    obtain ⟨rfl, rfl⟩ := p.tag_inj hb hfor.beat_lt (htag.symm.trans (heq.trans hfor.tag))
    -- a response either makes the beat done or takes its request back
    cases hretry : x.port.memRespRetryI && !(t.core.slot k).killed with
    | true =>
      have hback : (t.core.slotNext x.port k).beatSent b = false := by
        simp only [and_eq_true, not_eq_true'] at hretry
        simp [slotNext, htake, hretry]
      exact absurd_low (hback.symm.trans hsent)
    | false =>
      have hdone : (t.core.slotNext x.port k).beatDone b := by
        simp only [Bool.and_eq_false_iff, Bool.not_eq_false'] at hretry
        rcases hretry with hretry | hkill
        · simp [slotNext, htake, hretry]
        · simp [slotNext, htake, hkill]
      exact absurd_low (hleft.symm.trans hdone)
  once := by
    show ((_ ++ (if t.core.memReqFire x.port then [t.offered x] else [])).map _).Nodup
    have hsub : ((if x.port.memRespValidI then t.inFlight.eraseIdx x.answers
        else t.inFlight).map tag).Nodup := by
      refine h.once.sublist (List.Sublist.map _ ?_)
      cases x.port.memRespValidI with
      | false => exact List.Sublist.refl _
      | true => exact List.eraseIdx_sublist _ _
    cases hfire : t.core.memReqFire x.port with
    | false => simpa using hsub
    | true =>
      rw [if_pos rfl, List.map_append, List.nodup_append]
      refine ⟨hsub, by simp, ?_⟩
      intro tag htag tag' htag'
      rw [List.map_singleton, List.mem_singleton] at htag'
      obtain ⟨r, hr, rfl⟩ := List.mem_map.mp htag
      rw [htag']
      exact (h.forBeat_offered hclr hfire).2 r ((h.stays_iff hserved).mp hr).1

end Flights

end

/-- A slot holds the command that a record is about. -/
structure Holds (q : VecLsuSlot p) (c : VecLsuCommand p) : Prop where
  tag : q.tag = c.tag
  op : q.op = c.op
  vreg : q.vreg = c.vreg
  lmul : q.lmul = c.lmul
  unsupported : q.unsupported = c.unsupported

/-- The commands that live are those in front of the queue and in the slots that are not
killed; each has its own place and its own tag. -/
structure Held (t : VecLsuLedger p) : Prop where
  tail : t.core.allocateTailQ < p.queueDepth
  born : ∀ k < p.queueDepth, (t.core.slot k).valid = true → t.owner k < t.dispatched
  distinct : ∀ k < p.queueDepth, ∀ k' < p.queueDepth, (t.core.slot k).valid = true →
    (t.core.slot k').valid = true → t.owner k = t.owner k' → k = k'
  holds : ∀ k < p.queueDepth, (t.core.slot k).valid = true →
    Holds (t.core.slot k) (t.record (t.owner k)).command
  pendingBorn : t.core.pendingValidQ = true → t.pendingId < t.dispatched
  pendingApart : t.core.pendingValidQ = true → ∀ k < p.queueDepth,
    (t.core.slot k).valid = true → t.owner k ≠ t.pendingId
  pendingHolds : t.core.pendingValidQ = true → (t.record t.pendingId).command = t.core.pendingQ
  live : ∀ n, n ∈ t.live ↔ (t.core.pendingValidQ = true ∧ n = t.pendingId) ∨
    ∃ k < p.queueDepth, (t.core.slot k).valid = true ∧ (t.core.slot k).killed = false ∧
      t.owner k = n
  tags : ∀ n ∈ t.live, ∀ m ∈ t.live, (t.record n).command.tag = (t.record m).command.tag → n = m

section

variable {t : VecLsuLedger p} {x : VecLsuCycle p} {n k : ℕ}

theorem recordNext_of_lt (h : n < t.dispatched) : (t.step x).record n = t.recordKept x n := by
  show t.recordNext x n = _
  have hne : (t.dispatched == n) = false := beq_eq_false_iff_ne.mpr (Nat.ne_of_gt h)
  simp [recordNext, hne]

theorem command_step (h : n < t.dispatched) :
    ((t.step x).record n).command = (t.record n).command := by
  rw [recordNext_of_lt h]
  rfl

theorem retires_iff : t.retires x n ↔ x.port.retireValidI ∧
    t.core.retireReadyO x.port ∧ n ∈ t.live ∧ (t.record n).command.tag = x.port.retireTagI := by
  simp [retires, and_assoc]

theorem mem_live_step : n ∈ (t.step x).live ↔ (n ∈ t.live ∧ t.retires x n = false) ∨
      (t.core.dispatchFire x.port ∧ n = t.dispatched) := by
  show n ∈ _ ++ (if t.core.dispatchFire x.port then [t.dispatched] else []) ↔ _
  rw [List.mem_append, List.mem_filter]
  cases t.core.dispatchFire x.port <;> simp

end

end VecLsuLedger

namespace VecLsuState

variable {p : VecLsuParams} {s : VecLsuState p} {i : VecLsuInput p} {k : ℕ}

theorem killPending_spec (h : s.killPending i) : i.retireValidI ∧ i.retireKillI ∧ s.pendingValidQ ∧
      i.retireTagI = s.pendingQ.tag ∧ s.pendingPromote i = false ∧ s.dispatchFire i = false := by
  have hparts := h
  simp only [killPending, and_eq_true, beq_iff_eq] at hparts
  obtain ⟨⟨⟨hval, hkill⟩, hpend⟩, htag⟩ := hparts
  have hprom : s.pendingPromote i = false := by simp [pendingPromote, gprReadValidO, h]
  exact ⟨hval, hkill, hpend, htag, hprom, by
    simp [dispatchFire, dispatchReadyO, hpend, hprom]⟩

/-- How the place in front of the queue is filled after a cycle. -/
theorem pendingValid_cases (h : (s.step i).pendingValidQ) :
    (s.dispatchFire i ∧ s.killPending i = false) ∨
      (s.dispatchFire i = false ∧ s.killPending i = false ∧ s.pendingPromote i = false ∧
        s.pendingValidQ) := by
  have hnxt : (if s.killPending i then false
    else if s.dispatchFire i then true
    else if s.pendingPromote i then false
    else s.pendingValidQ) = true := h
  cases hkill : s.killPending i with
  | true => simp [hkill] at hnxt
  | false =>
  cases hfire : s.dispatchFire i with
  | true => exact .inl ⟨rfl, rfl⟩
  | false =>
    cases hprom : s.pendingPromote i with
    | true => simp [hkill, hfire, hprom] at hnxt
    | false => exact .inr ⟨rfl, rfl, rfl, by simpa [hkill, hfire, hprom] using hnxt⟩

/-- Two slots get a command in one cycle only if they are one. -/
theorem promotes_tail (h : s.promotes i k) : k = s.allocateTailQ := (promotes_spec h).2.1.symm

/-- A slot that gets a command is not killed in that cycle. -/
theorem killed_of_promotes (h : s.promotes i k) :
    (s.slotNext i k).killed = false ∧ (s.slotNext i k).valid := by
  have hemp := (promotes_spec h).2.2.2.2
  have hkill : s.kills i k = false := by
    by_contra hkill
    rw [(kills_spec (of_not_eq_false hkill)).2.1] at hemp
    cases hemp
  have hcom : s.commits i k = false := by
    by_contra hcom
    obtain ⟨hc, -, hslot⟩ := commits_spec (of_not_eq_false hcom)
    have := (retireCommitSlot_spec hc).2.1
    rw [hslot, hemp] at this
    cases this
  have hdr : s.drains k = false := by simp [drains, hemp]
  simp [slotNext, hkill, hcom, hdr, h]

/-- A slot that holds its command on and is not killed after a cycle was not before. -/
theorem killed_cases (hval : (s.slot k).valid) (hcom : s.commits i k = false)
    (hdr : s.drains k = false) : (s.slotNext i k).killed = (s.kills i k || (s.slot k).killed) := by
  cases hkill : s.kills i k <;>
    simp [slotNext, hcom, hdr, hkill, not_promotes hval]

end VecLsuState

namespace VecLsuState

variable {p : VecLsuParams} {s : VecLsuState p} {i : VecLsuInput p} {k b : ℕ}

theorem fault_next (hval : (s.slot k).valid) :
    (s.slotNext i k).fault = ((s.settles i k && i.memRespErrorI) || (s.slot k).fault) := by
  cases herr : s.settles i k && i.memRespErrorI <;>
    simp [slotNext, herr, not_promotes hval]

theorem beatSent_next (hval : (s.slot k).valid) :
    (s.slotNext i k).beatSent b = (!(s.takes i k b && i.memRespRetryI && !(s.slot k).killed) &&
      (s.sends i k b || (s.slot k).beatSent b)) := by
  cases hback : s.takes i k b && i.memRespRetryI && !(s.slot k).killed with
  | true =>
    show (if s.takes i k b && i.memRespRetryI && !(s.slot k).killed then false else _) = _
    rw [hback]
    rfl
  | false =>
    show (if s.takes i k b && i.memRespRetryI && !(s.slot k).killed then false else _) = _
    rw [hback, not_promotes hval]
    cases s.sends i k b <;> rfl

/-- A slot that is worked on after a cycle was so before. -/
theorem working_next (hval : (s.slot k).valid) (hcom : s.commits i k = false)
    (hdr : s.drains k = false) (h : (s.slotNext i k).working) :
    (s.slot k).working ∧ s.kills i k = false ∧ (s.settles i k && i.memRespErrorI) = false := by
  obtain ⟨-, hkill, hflt, hunsupported⟩ := working_iff.mp h
  rw [killed_cases hval hcom hdr, or_eq_false_iff] at hkill
  rw [fault_next hval, or_eq_false_iff] at hflt
  rw [(slotNext_kept hval).2.2.2.2.2] at hunsupported
  exact ⟨working_iff.mpr ⟨hval, hkill.2, hflt.2, hunsupported⟩, hkill.1, hflt.1⟩

theorem not_settles (hdone : (s.slot k).allDone) : s.settles i k = false := by
  by_contra h
  obtain ⟨htake, -⟩ := settles_iff.mp (of_not_eq_false h)
  obtain ⟨-, -, hb, -, -, -, hleft⟩ := takes_spec htake
  rw [allDone_iff.mp hdone _ hb] at hleft
  cases hleft

/-- An empty slot has no part in a cycle but to get a command. -/
theorem empty_quiet (hemp : (s.slot k).valid = false) :
    (∀ b, s.sends i k b = false) ∧ (∀ b, s.takes i k b = false) ∧ s.settles i k = false ∧
      s.gathers i k = false ∧ s.kills i k = false ∧ s.commits i k = false ∧
      s.drains k = false ∧ s.notifies i k = false ∧
      (s.rfWriteFire i && s.retireSlot i == k) = false := by
  have hno : ∀ {P : Prop}, (s.slot k).valid → P := by
    intro P hval
    rw [hemp] at hval
    cases hval
  have hwork : ∀ {P : Prop}, (s.slot k).working → P := fun h => hno (working_iff.mp h).1
  have htake : ∀ b, s.takes i k b = false := by
    intro b
    by_contra h
    exact hno (takes_spec (of_not_eq_false h)).2.2.2.2.1
  refine ⟨?_, htake, ?_, ?_, ?_, ?_, by simp [drains, hemp], ?_, ?_⟩
  · intro b
    by_contra h
    exact hwork (requestable_spec (sends_spec (of_not_eq_false h)).2.2).1
  · by_contra h
    have := (settles_iff.mp (of_not_eq_false h)).1
    rw [htake] at this
    cases this
  · by_contra h
    have hgath := (gathers_spec (of_not_eq_false h)).2.1
    simp only [VecLsuSlot.gathering, and_eq_true] at hgath
    exact hwork hgath.1.1
  · by_contra h
    exact hno (kills_spec (of_not_eq_false h)).2.1
  · by_contra h
    obtain ⟨hc, -, rfl⟩ := commits_spec (of_not_eq_false h)
    exact hno (retireCommitSlot_spec hc).2.1
  · by_contra h
    have hcompleting := (notifies_spec (of_not_eq_false h)).2
    simp only [VecLsuSlot.completing, and_eq_true] at hcompleting
    exact hno hcompleting.1.1.1
  · by_contra h
    rw [Bool.not_eq_false, and_eq_true, beq_iff_eq] at h
    obtain ⟨hfire, rfl⟩ := h
    exact hno (retireCommitSlot_spec (rfWriteFire_spec hfire).1).2.1

end VecLsuState

namespace VecLsuLedger

variable {p : VecLsuParams} {t : VecLsuLedger p} {x : VecLsuCycle p}

theorem dispatched_le : t.dispatched ≤ (t.step x).dispatched := by
  show t.dispatched ≤ if t.core.dispatchFire x.port then t.dispatched + 1 else t.dispatched
  split <;> omega

/-- The command in front of the queue after a cycle. -/
theorem pending_step (hpend : (t.step x).core.pendingValidQ) :
    (t.core.dispatchFire x.port ∧ t.core.killPending x.port = false ∧
      (t.step x).pendingId = t.dispatched ∧ (t.step x).core.pendingQ = x.port.dispatchI) ∨
    (t.core.dispatchFire x.port = false ∧ t.core.killPending x.port = false ∧
      t.core.pendingPromote x.port = false ∧ t.core.pendingValidQ ∧
      (t.step x).pendingId = t.pendingId ∧ (t.step x).core.pendingQ = t.core.pendingQ) := by
  rcases pendingValid_cases hpend with
    ⟨hfire, hkill⟩ | ⟨hfire, hkill, hprom, hold⟩
  · exact .inl ⟨hfire, hkill, by simp [step, hfire],
      by simp [step, VecLsuState.step, VecLsuState.pendingNext, hfire]⟩
  · exact .inr ⟨hfire, hkill, hprom, hold, by simp [step, hfire],
      by simp [step, VecLsuState.step, VecLsuState.pendingNext, hfire]⟩

end VecLsuLedger

namespace VecLsuLedger.Held

variable {p : VecLsuParams} {t : VecLsuLedger p} {x : VecLsuCycle p} {n k : ℕ} (h : t.Held)
include h

theorem live_born (hn : n ∈ t.live) : n < t.dispatched := by
  rcases (h.live n).mp hn with ⟨hpend, rfl⟩ | ⟨k, hk, hval, -, rfl⟩
  · exact h.pendingBorn hpend
  · exact h.born k hk hval

theorem live_pending (hpend : t.core.pendingValidQ) : t.pendingId ∈ t.live :=
  (h.live _).mpr (.inl ⟨hpend, rfl⟩)

theorem live_slot (hk : k < p.queueDepth) (hval : (t.core.slot k).valid)
    (hkill : (t.core.slot k).killed = false) : t.owner k ∈ t.live :=
  (h.live _).mpr (.inr ⟨k, hk, hval, hkill, rfl⟩)

/-- The command in front of the queue leaves by a kill only. -/
theorem retires_pending (hpend : t.core.pendingValidQ) :
    t.retires x t.pendingId = t.core.killPending x.port := by
  rw [Bool.eq_iff_iff, retires_iff]
  constructor
  · rintro ⟨hval, hrdy, -, htag⟩
    rw [h.pendingHolds hpend] at htag
    cases hkill : x.port.retireKillI with
    | true => simp [killPending, hval, hkill, hpend, htag]
    | false =>
      -- a commit finds a slot, and its command would have the tag of this one
      have hcom : t.core.retireCommitSlot x.port := by
        by_contra hno
        simp [retireReadyO, killPending, retireKillSlot, hkill, hno] at hrdy
      obtain ⟨hk, hslot, hstag, -, -, -, -, hlive⟩ := retireCommitSlot_spec hcom
      have heq := h.tags _ (h.live_slot hk hslot hlive) _ (h.live_pending hpend) (by
        rw [← (h.holds _ hk hslot).tag, h.pendingHolds hpend, hstag, htag])
      exact absurd heq (h.pendingApart hpend _ hk hslot)
  · intro hkill
    obtain ⟨hval, -, -, htag, -⟩ := killPending_spec hkill
    refine ⟨hval, by simp [retireReadyO, hkill], h.live_pending hpend, ?_⟩
    rw [h.pendingHolds hpend, htag]

/-- The command of a slot that is not killed leaves by a kill or a commit of its slot. -/
theorem retires_slot (hclr : t.Clear x) (hk : k < p.queueDepth)
    (hval : (t.core.slot k).valid) (hkilled : (t.core.slot k).killed = false) :
    t.retires x (t.owner k) = (t.core.kills x.port k || t.core.commits x.port k) := by
  have hlive := h.live_slot hk hval hkilled
  have hholds := h.holds k hk hval
  rw [Bool.eq_iff_iff, retires_iff, or_eq_true]
  constructor
  · rintro ⟨hretire, hrdy, -, htag⟩
    have hfnd : (t.core.retireScan x.port).isSome := by
      rw [retireScan, List.find?_isSome]
      exact ⟨k, List.mem_range.mpr hk, by simp [hval, hholds.tag, htag]⟩
    obtain ⟨hj, hjvalid, hjtag⟩ := retireScan_spec hfnd
    have hsame : (t.core.slot (t.core.retireSlot x.port)).killed = false →
        t.core.retireSlot x.port = k := by
      intro hjlive
      apply h.distinct _ hj _ hk hjvalid hval
      apply h.tags _ (h.live_slot hj hjvalid hjlive) _ hlive
      rw [← (h.holds _ hj hjvalid).tag, hjtag, htag]
    cases hkill : x.port.retireKillI with
    | true =>
      have hkills : t.core.retireKillSlot x.port := by
        simp [retireKillSlot, hretire, hkill, hfnd]
      left
      cases hjkilled : (t.core.slot (t.core.retireSlot x.port)).killed with
      | true =>
        exact absurd (hholds.tag.trans htag) ((hclr.2.2 hkills).1 hjkilled k hk hval hkilled)
      | false => simp [kills, hkills, hsame hjkilled]
    | false =>
      have hcom : t.core.retireCommitSlot x.port := by
        by_contra hno
        simp [retireReadyO, killPending, retireKillSlot, hkill, hno] at hrdy
      right
      have hjlive := (retireCommitSlot_spec hcom).2.2.2.2.2.2.2
      simp [commits, retireCommitFire, hcom, hrdy, hsame hjlive]
  · rintro (hkills | hcommits)
    · obtain ⟨-, -, htag, hretire, -, hslot⟩ := kills_spec hkills
      refine ⟨hretire, ?_, hlive, hholds.tag.symm.trans htag⟩
      rw [kills, and_eq_true] at hkills
      simp [retireReadyO, hkills.1]
    · obtain ⟨hcom, hrdy, hslot⟩ := commits_spec hcommits
      obtain ⟨-, -, htag, hretire, -⟩ := retireCommitSlot_spec hcom
      exact ⟨hretire, hrdy, hlive, hholds.tag.symm.trans (hslot ▸ htag)⟩

/-- What the command of a slot, and its holder, are after a cycle. -/
theorem slot_step (hval : ((t.step x).core.slot k).valid) :
    (t.core.promotes x.port k ∧ (t.step x).owner k = t.pendingId ∧
      t.core.pendingValidQ ∧ ((t.step x).core.slot k).killed = false ∧ k < p.queueDepth) ∨
    ((t.core.slot k).valid ∧ (t.step x).owner k = t.owner k ∧
      t.core.commits x.port k = false ∧ t.core.drains k = false ∧ ((t.step x).core.slot k).killed =
        (t.core.kills x.port k || (t.core.slot k).killed)) := by
  rcases valid_next_cases hval with hprom | ⟨hold, hcom, hdr⟩
  · refine .inl ⟨hprom, by simp [step, hprom], (promotes_spec hprom).2.2.1,
      (killed_of_promotes hprom).1, ?_⟩
    rw [promotes_tail hprom]
    exact h.tail
  · exact .inr ⟨hold, by simp [step, not_promotes hold], hcom, hdr, killed_cases hold hcom hdr⟩

theorem owner_step_lt (hk : k < p.queueDepth)
    (hval : ((t.step x).core.slot k).valid) : (t.step x).owner k < t.dispatched := by
  rcases h.slot_step hval with ⟨-, hown, hpend, -⟩ | ⟨hold, hown, -⟩
  · exact hown ▸ h.pendingBorn hpend
  · exact hown ▸ h.born k hk hold

theorem holds_step (hk : k < p.queueDepth) (hval : ((t.step x).core.slot k).valid) :
    Holds ((t.step x).core.slot k) ((t.step x).record ((t.step x).owner k)).command := by
  rw [command_step (h.owner_step_lt hk hval)]
  rcases h.slot_step hval with ⟨hprom, hown, hpend, -⟩ | ⟨hold, hown, -⟩
  · rw [hown, h.pendingHolds hpend]
    have hslot : (t.step x).core.slot k = t.core.slotNext x.port k := rfl
    rw [hslot]
    constructor <;> simp [slotNext, hprom]
  rw [hown]
  obtain ⟨htag, hop, -, hvreg, hlmul, hunsupported⟩ := slotNext_kept (i := x.port) hold
  have hh := h.holds k hk hold
  exact ⟨htag.trans hh.tag, hop.trans hh.op, hvreg.trans hh.vreg, hlmul.trans hh.lmul,
    hunsupported.trans hh.unsupported⟩

theorem distinct_step {k' : ℕ} (hk : k < p.queueDepth) (hk' : k' < p.queueDepth)
    (hval : ((t.step x).core.slot k).valid)
    (hval' : ((t.step x).core.slot k').valid)
    (heq : (t.step x).owner k = (t.step x).owner k') : k = k' := by
  rcases h.slot_step hval with ⟨hprom, hown, hpend, -⟩ | ⟨hold, hown, -⟩
  · rcases h.slot_step hval' with ⟨hprom', -⟩ | ⟨hold', hown', -⟩
    · rw [promotes_tail hprom, promotes_tail hprom']
    · exact absurd ((hown'.symm.trans heq.symm).trans hown) (h.pendingApart hpend k' hk' hold')
  · rcases h.slot_step hval' with ⟨-, hown', hpend, -⟩ | ⟨hold', hown', -⟩
    · exact absurd ((hown.symm.trans heq).trans hown') (h.pendingApart hpend k hk hold)
    · exact h.distinct k hk k' hk' hold hold' ((hown.symm.trans heq).trans hown')

theorem live_step (hclr : t.Clear x) : n ∈ (t.step x).live ↔
    ((t.step x).core.pendingValidQ ∧ n = (t.step x).pendingId) ∨
      ∃ k < p.queueDepth, ((t.step x).core.slot k).valid ∧
        ((t.step x).core.slot k).killed = false ∧ (t.step x).owner k = n := by
  rw [mem_live_step]
  constructor
  · rintro (⟨hlive, hstays⟩ | ⟨hfire, rfl⟩)
    · rcases (h.live n).mp hlive with ⟨hpend, rfl⟩ | ⟨k, hk, hval, hkilled, rfl⟩
      · rw [h.retires_pending hpend] at hstays
        cases hprom : t.core.pendingPromote x.port with
        | true =>
          have hpk : t.core.promotes x.port t.core.allocateTailQ := by
            simp [promotes, hprom]
          obtain ⟨hnot, hval⟩ := killed_of_promotes hpk
          exact .inr ⟨_, h.tail, hval, hnot, by simp [step, hpk]⟩
        | false =>
          have hfire : t.core.dispatchFire x.port = false := by
            simp [dispatchFire, dispatchReadyO, hpend, hprom]
          refine .inl ⟨?_, by simp [step, hfire]⟩
          show t.core.pendingValidNext x.port
          simp [pendingValidNext, hstays, hfire, hprom, hpend]
      rw [h.retires_slot hclr hk hval hkilled, or_eq_false_iff] at hstays
      have hdr : t.core.drains k = false := by simp [drains, hkilled]
      have hprom := not_promotes (i := x.port) hval
      refine .inr ⟨k, hk, ?_, ?_, by simp [step, hprom]⟩
      · show (t.core.slotNext x.port k).valid
        simp [slotNext, hstays.2, hdr, hval]
      · exact (killed_cases hval hstays.2 hdr).trans (by simp [hstays.1, hkilled])
    have hkill : t.core.killPending x.port = false := by
      by_contra hkill
      rw [(killPending_spec (of_not_eq_false hkill)).2.2.2.2.2] at hfire
      cases hfire
    refine .inl ⟨?_, by simp [step, hfire]⟩
    show t.core.pendingValidNext x.port
    simp [pendingValidNext, hkill, hfire]
  · rintro (⟨hpend, rfl⟩ | ⟨k, hk, hval, hkilled, rfl⟩)
    · rcases pending_step hpend with ⟨hfire, -, hid, -⟩ | ⟨-, hkill, -, hold, hid, -⟩
      · exact .inr ⟨hfire, hid⟩
      · rw [hid, h.retires_pending hold]
        exact .inl ⟨h.live_pending hold, hkill⟩
    rcases h.slot_step hval with
      ⟨hprom, hown, hpend, -⟩ | ⟨hold, hown, hcom, -, hkilled'⟩
    · rw [hown, h.retires_pending hpend]
      exact .inl ⟨h.live_pending hpend, (promotes_spec hprom).2.2.2.1⟩
    · rw [hkilled', or_eq_false_iff] at hkilled
      rw [hown, h.retires_slot hclr hk hold hkilled.2, hkilled.1, hcom]
      exact .inl ⟨h.live_slot hk hold hkilled.2, rfl⟩

theorem tags_step (hserved : t.Served x) {m : ℕ} (hn : n ∈ (t.step x).live)
    (hm : m ∈ (t.step x).live)
    (heq : ((t.step x).record n).command.tag = ((t.step x).record m).command.tag) : n = m := by
  have hnew : t.core.dispatchFire x.port →
      ((t.step x).record t.dispatched).command = x.port.dispatchI := by
    intro hfire
    show (t.recordNext x t.dispatched).command = _
    simp [recordNext, hfire, VecLsuCommand.record]
  rcases mem_live_step.mp hn with ⟨hn, hns⟩ | ⟨hfire, rfl⟩
  · rw [command_step (h.live_born hn)] at heq
    rcases mem_live_step.mp hm with ⟨hm, -⟩ | ⟨hfire, rfl⟩
    · rw [command_step (h.live_born hm)] at heq
      exact h.tags n hn m hm heq
    · rw [hnew hfire] at heq
      exact absurd heq (hserved.1 hfire n hn hns)
  · rcases mem_live_step.mp hm with ⟨hm, hms⟩ | ⟨-, rfl⟩
    · rw [hnew hfire, command_step (h.live_born hm)] at heq
      exact absurd heq.symm (hserved.1 hfire m hm hms)
    · rfl

theorem step (hserved : t.Served x) (hclr : t.Clear x) : (t.step x).Held where
  tail := by
    show (if t.core.pendingPromote x.port then
      if t.core.allocateTailQ = p.queueDepth - 1 then 0 else t.core.allocateTailQ + 1
      else t.core.allocateTailQ) < p.queueDepth
    have := h.tail
    have := p.depth_pos
    split
    · split <;> omega
    · exact h.tail
  born k hk hval := (h.owner_step_lt hk hval).trans_le dispatched_le
  distinct k hk k' hk' := h.distinct_step hk hk'
  holds k hk := h.holds_step hk
  pendingBorn hpend := by
    rcases pending_step hpend with ⟨hfire, -, hid, -⟩ | ⟨-, -, -, hold, hid, -⟩
    · simp [VecLsuLedger.step, hfire]
    · exact hid ▸ (h.pendingBorn hold).trans_le dispatched_le
  pendingApart hpend k hk hval := by
    have hlt := h.owner_step_lt hk hval
    rcases pending_step hpend with ⟨-, -, hid, -⟩ | ⟨-, -, hprom, hold, hid, -⟩
    · rw [hid]
      exact Nat.ne_of_lt hlt
    rcases h.slot_step hval with ⟨hpk, -⟩ | ⟨hwas, hown, -⟩
    · rw [(promotes_spec hpk).1] at hprom
      cases hprom
    · rw [hown, hid]
      exact h.pendingApart hold k hk hwas
  pendingHolds hpend := by
    rcases pending_step hpend with ⟨hfire, -, hid, hcmd⟩ | ⟨-, -, -, hold, hid, hcmd⟩
    · rw [hid, hcmd]
      show (t.recordNext x t.dispatched).command = _
      simp [recordNext, hfire, VecLsuCommand.record]
    · rw [hid, hcmd, command_step (h.pendingBorn hold)]
      exact h.pendingHolds hold
  live n := h.live_step hclr
  tags n hn m hm := h.tags_step hserved hn hm

end VecLsuLedger.Held

end OpenRV64
