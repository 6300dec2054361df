/-
What the vector load/store unit does for each command, cycle by cycle: responses go where
they belong, slots outlive their requests, and registers and memory get what they should.
-/
import OpenRV64.VecLsuSlots

namespace OpenRV64

open VecLsuParams VecLsuState
open Bool (of_not_eq_false not_eq_false not_eq_true' or_eq_false_iff or_eq_true or_eq_true_iff
  and_eq_true_iff and_eq_true)
open VecLsuSlot (gathering atHead)

namespace VecLsuLedger

variable {p : VecLsuParams}

/-- What slot `k` and the record of its command have to do with each other. -/
structure Recorded (t : VecLsuLedger p) (k : ℕ) : Prop where
  pointer : (t.record (t.owner k)).pointer = some (t.core.slot k).addr
  faulted : (t.record (t.owner k)).faulted = (t.core.slot k).fault
  idle : (t.core.slot k).unsupported = true → ∀ b, (t.core.slot k).beatDone b = true
  kept : ∀ b < p.maxBeats, (t.core.slot k).beatDone b = false →
    (t.core.slot k).beatSent b = true ∨ (t.core.slot k).working = true
  outside : ∀ b, p.groupBeats (t.core.slot k).lmul ≤ b → (t.core.slot k).beatDone b = true
  sentDone : (t.core.slot k).working = true → ∀ b < p.groupBeats (t.core.slot k).lmul,
    (t.core.slot k).beatDone b = true → (t.core.slot k).beatSent b = true
  loaded : (t.core.slot k).working = true → (t.core.slot k).op = .load →
    ∀ b < p.groupBeats (t.core.slot k).lmul, (t.core.slot k).beatDone b = true →
      ∃ data, (t.record (t.owner k)).loaded b = some data ∧
        ∀ j < p.rfSlicesPerBeat, (t.core.slot k).loadSlice (b * p.rfSlicesPerBeat + j) = data j
  gathered : (t.core.slot k).working = true → (t.core.slot k).op = .store →
    (t.record (t.owner k)).gathered = p.groupImage (t.core.slot k).vreg
        (if (t.core.slot k).gatherDone then p.groupSlices (t.core.slot k).lmul
          else (t.core.slot k).gatherIndex) (t.core.slot k).storeSlice ∧
      ((t.core.slot k).gatherDone = false →
        (t.core.slot k).gatherIndex < p.groupSlices (t.core.slot k).lmul)
  head : (t.core.slot k).killed = false → (t.core.slot k).ordered = true →
    (t.record (t.owner k)).wasHead = true
  stored : ∀ b ∈ (t.record (t.owner k)).stored,
    (t.core.slot k).beatSent b = true ∧ (t.core.slot k).op = .store
  sent : (t.core.slot k).killed = false → (t.core.slot k).op = .store →
    ∀ b, (t.core.slot k).beatSent b = true → b ∈ (t.record (t.owner k)).stored
  written : (t.record (t.owner k)).written =
    p.groupImage (t.core.slot k).vreg (t.core.slot k).writeIndex (t.core.slot k).loadSlice
  writing : (t.core.slot k).writeIndex ≠ 0 → (t.core.slot k).working = true ∧
    (t.core.slot k).op = .load ∧ (t.core.slot k).allDone = true
  index : (t.core.slot k).writeIndex < p.groupSlices (t.core.slot k).lmul

/-- The invariant of the unit. -/
structure Inv (t : VecLsuLedger p) : Prop where
  held : t.Held
  flights : t.Flights
  recorded : ∀ k < p.queueDepth, (t.core.slot k).valid = true → t.Recorded k
  fresh : t.core.pendingValidQ = true → ∃ head,
    t.record t.pendingId = { t.core.pendingQ.record with wasHead := head }
  storedOnce : ∀ n, (t.record n).stored.Nodup
  quiet : ∀ n, (t.record n).killed = true → n ∉ t.live ∧ (t.record n).written = []

namespace Inv

variable {t : VecLsuLedger p} {x : VecLsuCycle p} {k b n : ℕ} (h : t.Inv) (hserved : t.Served x)
include h

theorem owner_inj {k' : ℕ} (hk : k < p.queueDepth) (hk' : k' < p.queueDepth)
    (hval : (t.core.slot k).valid) (hval' : (t.core.slot k').valid) :
    t.owner k = t.owner k' ↔ k = k' :=
  ⟨h.held.distinct k hk k' hk' hval hval', congrArg t.owner⟩

section

variable (hk : k < p.queueDepth) (hval : (t.core.slot k).valid)
include hk hval

/-- The cycles in which a slot reads the register file are those of its command. -/
theorem gathers_owner : (t.core.rfReadFire x.port && t.owner t.core.gatherSlot == t.owner k) =
      t.core.gathers x.port k := by
  rw [Bool.eq_iff_iff, and_eq_true, beq_iff_eq, gathers, and_eq_true, beq_iff_eq]
  refine and_congr_right fun hfire => ?_
  have hgathers : t.core.gathers x.port t.core.gatherSlot := by
    simp [gathers, hfire]
  obtain ⟨hlt, hgath, -, -⟩ := gathers_spec hgathers
  simp only [gathering, and_eq_true] at hgath
  exact h.owner_inj hlt hk (working_iff.mp hgath.1.1).1 hval

/-- The cycles in which a slot writes the register file are those of its command. -/
theorem writes_owner :
    (t.core.rfWriteFire x.port && t.owner (t.core.retireSlot x.port) == t.owner k) =
      (t.core.rfWriteFire x.port && t.core.retireSlot x.port == k) := by
  rw [Bool.eq_iff_iff, and_eq_true, and_eq_true, beq_iff_eq, beq_iff_eq]
  refine and_congr_right fun hfire => ?_
  obtain ⟨hcom, -⟩ := rfWriteFire_spec hfire
  obtain ⟨hlt, hslot, -⟩ := retireCommitSlot_spec hcom
  exact h.owner_inj hlt hk hslot hval

/-- The requests of a slot are those of its command. -/
theorem sends_owner :
    (t.core.memReqFire x.port && (t.offered x).write && (t.offered x).command == t.owner k) =
      (t.core.memReqFire x.port && t.core.requestSlot x.port == k &&
        (t.core.slot k).op == .store) := by
  rw [Bool.eq_iff_iff]
  simp only [and_eq_true, beq_iff_eq, VecLsuOp.beq_eq_decide, decide_eq_true_eq, and_assoc]
  refine and_congr_right fun hfire => ?_
  obtain ⟨hlt, -, hreq, -⟩ := memReqFire_spec hfire
  have hslot := (working_iff.mp (requestable_spec hreq).1).1
  have hinj := h.owner_inj hlt hk hslot hval
  have hshow : t.core.memReqValidO x.port := (and_eq_true _ _ ▸ hfire).1
  have hwr : (t.offered x).write = ((t.core.slot (t.core.requestSlot x.port)).op == .store) := by
    show (t.core.memReqValidO x.port && _) = _
    rw [hshow, Bool.true_and]
  rw [hwr, VecLsuOp.beq_eq_decide, decide_eq_true_eq]
  show _ ∧ t.owner (t.core.requestSlot x.port) = t.owner k ↔ _
  rw [hinj]
  constructor
  · rintro ⟨hop, rfl⟩
    exact ⟨rfl, hop⟩
  · rintro ⟨rfl, hop⟩
    exact ⟨hop, rfl⟩

theorem promote_owner : (t.core.pendingPromote x.port && t.pendingId == t.owner k) = false := by
  by_contra hno
  rw [not_eq_false, and_eq_true, beq_iff_eq] at hno
  obtain ⟨hprom, heq⟩ := hno
  have hwaits : t.core.pendingValidQ := by
    simp only [pendingPromote, gprReadValidO, and_eq_true] at hprom
    exact hprom.1.1.1.1
  exact h.held.pendingApart hwaits k hk hval heq.symm

end

include hserved

section

variable (hk : k < p.queueDepth) (hval : (t.core.slot k).valid)
include hk hval

/-- An answer to a command in a slot is taken by its beat. -/
theorem answered_owner {r : VecMemRequest p} (hr : t.answered x = some r)
    (hcmd : r.command = t.owner k) : t.ForBeat r k r.beat ∧ t.core.takes x.port k r.beat := by
  obtain ⟨k', b', hfor, htake⟩ := h.flights.takes_of_answered hserved hr
  obtain rfl := h.held.distinct k' hfor.slot_lt k hk hfor.valid hval (hfor.command.symm.trans hcmd)
  obtain rfl := hfor.beat
  exact ⟨hfor, htake⟩

theorem refused_owner : t.refused x (t.owner k) = some b ↔ t.core.takes x.port k b ∧
      x.port.memRespRetryI ∧ (t.core.slot k).op = .store := by
  rw [refused, Option.bind_eq_some_iff]
  constructor
  · rintro ⟨r, hr, hif⟩
    split at hif
    · rename_i hcond
      cases hif
      obtain ⟨hcmd, hwr, hretry⟩ := hcond
      obtain ⟨hfor, htake⟩ := h.answered_owner hserved hk hval hr hcmd
      rw [hfor.write] at hwr
      exact ⟨htake, hretry, by simpa using hwr⟩
    · cases hif
  · rintro ⟨htake, hretry, hop⟩
    obtain ⟨r, hr, hfor⟩ := h.flights.answered_of_takes hserved htake
    refine ⟨r, hr, ?_⟩
    rw [if_pos ⟨hfor.command, by simp [hfor.write, hop], hretry⟩, hfor.beat]

theorem readAnswer_owner : t.readAnswer x (t.owner k) b =
      if t.core.takes x.port k b && (t.core.slot k).op != .store && !x.port.memRespRetryI &&
          !x.port.memRespErrorI then some x.port.memRespRdataI else none := by
  cases htake : t.core.takes x.port k b with
  | true =>
    obtain ⟨r, hr, hfor⟩ := h.flights.answered_of_takes hserved htake
    rw [readAnswer, hr, Option.bind_some]
    simp [hfor.command, hfor.beat, hfor.write, bne, and_assoc]
  | false =>
    rw [Bool.false_and, Bool.false_and, Bool.false_and, if_low, readAnswer, Option.bind_eq_none_iff]
    intro r hr
    apply if_neg
    rintro ⟨hcmd, rfl, -⟩
    rw [(h.answered_owner hserved hk hval hr hcmd).2] at htake
    cases htake

theorem faults_owner :
    t.faults x (t.owner k) = (t.core.settles x.port k && x.port.memRespErrorI) := by
  rw [faults, h.promote_owner hk hval, Bool.false_and, Bool.false_or, Bool.eq_iff_iff]
  simp only [and_eq_true, not_eq_true', Option.any_eq_true, beq_iff_eq]
  rw [settles_iff]
  constructor
  · rintro ⟨⟨⟨r, hr, hcmd⟩, herr⟩, hretry⟩
    have htake := (h.answered_owner hserved hk hval hr hcmd).2
    rw [(takes_iff.mp htake).2.2]
    exact ⟨⟨htake, hretry⟩, herr⟩
  · rintro ⟨⟨htake, hretry⟩, herr⟩
    obtain ⟨r, hr, hfor⟩ := h.flights.answered_of_takes hserved htake
    exact ⟨⟨⟨r, hr, hfor.command⟩, herr⟩, hretry⟩

end

end Inv

end VecLsuLedger

namespace VecLsuParams

variable {p : VecLsuParams} {vreg : BitVec p.regAddrWidth} {f g : ℕ → BitVec 64} {n : ℕ}

theorem groupImage_succ : p.groupImage vreg (n + 1) f = p.groupImage vreg n f ++
    [⟨vreg + BitVec.ofNat _ (n / p.baseSlices), n % p.baseSlices, f n⟩] := by
  rw [groupImage, List.range_succ, List.map_append]
  rfl

theorem groupImage_congr (h : ∀ j < n, f j = g j) :
    p.groupImage vreg n f = p.groupImage vreg n g := by
  apply List.map_congr_left
  intro j hj
  rw [h j (List.mem_range.mp hj)]

end VecLsuParams

namespace VecLsuLedger

/-- A slot that holds its command on. -/
structure Stays {p : VecLsuParams} (t : VecLsuLedger p) (x : VecLsuCycle p) (k : ℕ) : Prop where
  lt : k < p.queueDepth
  valid : (t.core.slot k).valid = true
  commit : t.core.commits x.port k = false
  drain : t.core.drains k = false

namespace Stays

variable {p : VecLsuParams} {t : VecLsuLedger p} {x : VecLsuCycle p} {k : ℕ} (hk : t.Stays x k)
include hk

theorem owner : (t.step x).owner k = t.owner k := by
  simp [VecLsuLedger.step, not_promotes hk.valid]

theorem working (hwork : (t.core.slotNext x.port k).working) :
    (t.core.slot k).working ∧ t.core.kills x.port k = false ∧
      (t.core.settles x.port k && x.port.memRespErrorI) = false :=
  working_next hk.valid hk.commit hk.drain hwork

end Stays

namespace Inv

variable {p : VecLsuParams} {t : VecLsuLedger p} {x : VecLsuCycle p} {k b : ℕ}
  (h : t.Inv) (hserved : t.Served x) (hk : t.Stays x k)
include h hk

theorem record_stays : (t.step x).record ((t.step x).owner k) = t.recordKept x (t.owner k) := by
  rw [hk.owner]
  exact recordNext_of_lt (h.held.born k hk.lt hk.valid)

/-- A beat that is not done is outstanding, or its slot is worked on. -/
theorem kept_stays (hclr : t.Clear x) (hb : b < p.maxBeats)
    (hleft : (t.core.slotNext x.port k).beatDone b = false) :
    (t.core.slotNext x.port k).beatSent b ∨ (t.core.slotNext x.port k).working := by
  have hrec := h.recorded k hk.lt hk.valid
  have hwas : (t.core.slot k).beatDone b = false := by
    by_contra hdone
    rw [beatDone_mono hk.valid (of_not_eq_false hdone)] at hleft
    cases hleft
  have hsup : (t.core.slot k).unsupported = false := by
    by_contra hno
    rw [hrec.idle (of_not_eq_false hno)] at hwas
    cases hwas
  -- whatever marks an unsent beat done has not happened
  have hnxt : (t.core.slot k).beatSent b = false → t.core.kills x.port k = false ∧
      (t.core.settles x.port k && x.port.memRespErrorI) = false := by
    intro hunsent
    constructor
    · by_contra hkill
      simp [slotNext, of_not_eq_false hkill, hunsent] at hleft
    · by_contra herr
      simp [slotNext, of_not_eq_false herr, hunsent] at hleft
  have hworks : t.core.kills x.port k = false →
      (t.core.settles x.port k && x.port.memRespErrorI) = false →
      (t.core.slot k).killed = false → (t.core.slot k).fault = false →
      (t.core.slotNext x.port k).working := by
    intro hkill herr hkilled hflt
    refine working_iff.mpr ⟨valid_of_left hk.valid hb hwas, ?_, ?_, ?_⟩
    · rw [killed_cases hk.valid hk.commit hk.drain, hkill, hkilled, Bool.or_false]
    · rw [fault_next hk.valid, herr, hflt, Bool.or_false]
    · rw [(slotNext_kept hk.valid).2.2.2.2.2, hsup]
  cases hsent : (t.core.slot k).beatSent b with
  | true =>
    cases hback : t.core.takes x.port k b && x.port.memRespRetryI && !(t.core.slot k).killed with
    | false => exact .inl (by rw [beatSent_next hk.valid, hback, hsent, Bool.or_true]; rfl)
    | true =>
      -- the request is taken back, and is made again
      simp only [and_eq_true, not_eq_true'] at hback
      obtain ⟨⟨htake, hretry⟩, hkilled⟩ := hback
      obtain ⟨huse, hslot, -⟩ := takes_iff.mp htake
      obtain ⟨hflt, hkill⟩ := hclr.2.1 huse hretry (hslot ▸ hkilled)
      rw [hslot] at hflt hkill
      refine .inr (hworks hkill ?_ hkilled hflt)
      rw [settles, hretry]
      simp
  | false =>
    obtain ⟨hkill, herr⟩ := hnxt hsent
    have hwork := (hrec.kept b hb hwas).resolve_left (by simp [hsent])
    obtain ⟨-, hkilled, hflt, -⟩ := working_iff.mp hwork
    exact .inr (hworks hkill herr hkilled hflt)

theorem sentDone_stays (hwork : (t.core.slotNext x.port k).working)
    (hb : b < p.groupBeats (t.core.slot k).lmul)
    (hdone : (t.core.slotNext x.port k).beatDone b) : (t.core.slotNext x.port k).beatSent b := by
  obtain ⟨hwas, hkill, herr⟩ := hk.working hwork
  obtain ⟨-, hkilled, -, -⟩ := working_iff.mp hwas
  rw [beatSent_next hk.valid]
  rcases beatDone_cases hk.valid hdone with hold | ⟨hno, -⟩ | ⟨htake, hwhy⟩ | ⟨hno, hno', -⟩
  · have hnot : t.core.takes x.port k b = false := by
      by_contra htake
      rw [(takes_spec (of_not_eq_false htake)).2.2.2.2.2.2] at hold
      cases hold
    simp [hnot, (h.recorded k hk.lt hk.valid).sentDone hwas b hb hold]
  · rw [hno] at hkill
    cases hkill
  · have hretry := hwhy.resolve_right (by simp [hkilled])
    simp [hretry, (takes_spec htake).2.2.2.2.2.1]
  · rw [hno, hno'] at herr
    cases herr

theorem gathered_stays (hwork : (t.core.slotNext x.port k).working)
    (hop : (t.core.slot k).op = .store) :
    (t.recordKept x (t.owner k)).gathered = p.groupImage (t.core.slot k).vreg
        (if (t.core.slotNext x.port k).gatherDone then p.groupSlices (t.core.slot k).lmul
          else (t.core.slotNext x.port k).gatherIndex) (t.core.slotNext x.port k).storeSlice ∧
      ((t.core.slotNext x.port k).gatherDone = false →
        (t.core.slotNext x.port k).gatherIndex < p.groupSlices (t.core.slot k).lmul) := by
  obtain ⟨hwas, -, -⟩ := hk.working hwork
  obtain ⟨hold, hidx⟩ := (h.recorded k hk.lt hk.valid).gathered hwas hop
  have hprom := not_promotes (i := x.port) hk.valid
  have hgathered : (t.recordKept x (t.owner k)).gathered =
      if t.core.gathers x.port k then (t.record (t.owner k)).gathered ++ [t.gatheredNow x]
      else (t.record (t.owner k)).gathered := by
    rw [recordKept, h.gathers_owner hk.lt hk.valid]
  rw [hgathered]
  cases hgathers : t.core.gathers x.port k with
  | false =>
    rw [if_low, hold]
    refine ⟨?_, ?_⟩ <;> simp [slotNext, hgathers, hprom]
    exact hidx
  | true =>
    obtain ⟨-, hgath, hslot, -⟩ := gathers_spec hgathers
    simp only [gathering, and_eq_true, not_eq_true'] at hgath
    have hnot := hgath.2
    have hat : t.core.gatherIndex = (t.core.slot k).gatherIndex := by
      rw [gatherIndex, hslot]
    have hlt := hidx hnot
    have hlast : t.core.gatherLast =
        decide ((t.core.slot k).gatherIndex + 1 = p.groupSlices (t.core.slot k).lmul) := by
      rw [gatherLast, hat, hslot]
      rfl
    have hprefix : p.groupImage (t.core.slot k).vreg ((t.core.slot k).gatherIndex + 1)
        (t.core.slotNext x.port k).storeSlice =
        (t.record (t.owner k)).gathered ++ [t.gatheredNow x] := by
      rw [groupImage_succ, hold, hnot, if_low]
      congr 1
      · apply groupImage_congr
        intro j hj
        have hne : (t.core.slot k).gatherIndex ≠ j := by omega
        simp [slotNext, hgathers, hat, hne]
      · simp [gatheredNow, rfReadAddrO, rfReadSliceO, hat, hslot, slotNext, hgathers]
    rw [if_pos rfl, ← hprefix]
    by_cases hend : (t.core.slot k).gatherIndex + 1 = p.groupSlices (t.core.slot k).lmul
    · have hdone : (t.core.slotNext x.port k).gatherDone := by
        simp [slotNext, hgathers, hlast, hend]
      rw [hdone, if_pos rfl, hend]
      exact ⟨rfl, fun hno => absurd hno (by simp)⟩
    have hmore : (t.core.slotNext x.port k).gatherDone = false ∧
        (t.core.slotNext x.port k).gatherIndex = (t.core.slot k).gatherIndex + 1 := by
      simp [slotNext, hgathers, hlast, hend, hprom, hnot]
    rw [hmore.1, hmore.2, if_low]
    exact ⟨rfl, fun _ => by omega⟩

theorem head_stays (hkill : (t.core.slotNext x.port k).killed = false)
    (hord : (t.core.slotNext x.port k).ordered) : (t.recordKept x (t.owner k)).wasHead := by
  rw [killed_cases hk.valid hk.commit hk.drain, or_eq_false_iff] at hkill
  show ((t.record (t.owner k)).wasHead || t.isHead x (t.owner k))
  rw [or_eq_true]
  cases hhead : (t.core.slot k).atHead x.port with
  | true =>
    right
    simp only [atHead, and_eq_true, beq_iff_eq] at hhead
    simp [isHead, hhead.1, h.held.live_slot hk.lt hk.valid hkill.2, hhead.2,
      (h.held.holds k hk.lt hk.valid).tag]
  | false =>
    left
    apply (h.recorded k hk.lt hk.valid).head hkill.2
    simpa [slotNext, hk.commit, hhead, not_promotes hk.valid] using hord

section

variable (hclr : t.Clear x)

include hclr

/-- A slot that writes the register file, or has begun to, has no beat left. -/
theorem writing_stays (hwr : (t.core.rfWriteFire x.port && t.core.retireSlot x.port == k) ∨
      (t.core.slot k).writeIndex ≠ 0) :
    (t.core.slot k).working ∧ (t.core.slot k).op = .load ∧
      (t.core.slot k).allDone ∧ t.core.kills x.port k = false := by
  rcases hwr with hwr | hbegun
  · rw [and_eq_true, beq_iff_eq] at hwr
    obtain ⟨hfire, hslot⟩ := hwr
    obtain ⟨hcom, hop, hflt, hsup⟩ := rfWriteFire_spec hfire
    obtain ⟨-, hval, -, -, hkeep, -, hdone, hkill⟩ := retireCommitSlot_spec hcom
    rw [hslot] at hop hflt hsup hval hdone hkill
    refine ⟨working_iff.mpr ⟨hval, hkill, hflt, hsup⟩, hop, hdone, ?_⟩
    by_contra hkills
    rw [(kills_spec (of_not_eq_false hkills)).2.2.2.2.1] at hkeep
    cases hkeep
  obtain ⟨hwork, hop, hdone⟩ := (h.recorded k hk.lt hk.valid).writing hbegun
  refine ⟨hwork, hop, hdone, ?_⟩
  by_contra hkills
  have hspec := kills_spec (of_not_eq_false hkills)
  rw [not_eq_false, kills, and_eq_true] at hkills
  exact hbegun (hspec.2.2.2.2.2 ▸ (hclr.2.2 hkills.1).2)

/-- The write index moves on with each slice written; the last one ends the command. -/
theorem writeIndex_stays : ((t.core.rfWriteFire x.port && t.core.retireSlot x.port == k) ∧
      (t.core.slotNext x.port k).writeIndex = (t.core.slot k).writeIndex + 1 ∧
      (t.core.slot k).writeIndex + 1 ≠ p.groupSlices (t.core.slot k).lmul ∧
      (t.core.slotNext x.port k).loadSlice = (t.core.slot k).loadSlice) ∨
    ((t.core.rfWriteFire x.port && t.core.retireSlot x.port == k) = false ∧
      (t.core.slotNext x.port k).writeIndex = (t.core.slot k).writeIndex ∧
      ((t.core.slot k).writeIndex = 0 ∨
        (t.core.slotNext x.port k).loadSlice = (t.core.slot k).loadSlice)) := by
  have hprom := not_promotes (i := x.port) hk.valid
  have hslices : (t.core.slot k).allDone →
      (t.core.slotNext x.port k).loadSlice = (t.core.slot k).loadSlice := by
    intro hdone
    simp [slotNext, not_settles hdone]
  cases hwr : t.core.rfWriteFire x.port && t.core.retireSlot x.port == k with
  | true =>
    have hdone := (h.writing_stays hk hclr (.inl hwr)).2.2.1
    have hparts := hwr
    rw [and_eq_true, beq_iff_eq] at hparts
    obtain ⟨hfire, hslot⟩ := hparts
    have hlast : t.core.retireWriteLast x.port = false := by
      by_contra hlast
      have hcom := (rfWriteFire_spec hfire).1
      have : t.core.commits x.port k := by
        simp [commits, retireCommitFire, retireReadyO, hcom, hfire, of_not_eq_false hlast, hslot]
      rw [hk.commit] at this
      cases this
    refine .inl ⟨rfl, ?_, ?_, hslices hdone⟩
    · simp [slotNext, hfire, hslot, hlast]
    · simpa [retireWriteLast, retireWriteIndex, hslot] using hlast
  | false =>
    refine .inr ⟨rfl, ?_, ?_⟩
    · have hno : (t.core.rfWriteFire x.port && !t.core.retireWriteLast x.port &&
          t.core.retireSlot x.port == k) = false := by
        rw [Bool.and_right_comm, hwr, Bool.false_and]
      simp [slotNext, hno, hprom]
    · by_cases hz : (t.core.slot k).writeIndex = 0
      · exact .inl hz
      · exact .inr (hslices (h.writing_stays hk hclr (.inr hz)).2.2.1)

theorem written_stays : (t.recordKept x (t.owner k)).written = p.groupImage (t.core.slot k).vreg
      (t.core.slotNext x.port k).writeIndex (t.core.slotNext x.port k).loadSlice := by
  have hold := (h.recorded k hk.lt hk.valid).written
  have hwritten : (t.recordKept x (t.owner k)).written =
      if t.core.rfWriteFire x.port && t.core.retireSlot x.port == k then
        (t.record (t.owner k)).written ++ [t.writtenNow x]
      else (t.record (t.owner k)).written := by
    rw [recordKept, h.writes_owner hk.lt hk.valid]
  rw [hwritten]
  rcases h.writeIndex_stays hk hclr with
    ⟨hwr, hidx, -, hslices⟩ | ⟨hwr, hidx, hslices⟩
  · have hslot : t.core.retireSlot x.port = k := by
      rw [and_eq_true, beq_iff_eq] at hwr
      exact hwr.2
    rw [hwr, if_pos rfl, hidx, hslices, groupImage_succ, hold]
    simp [writtenNow, rfWriteAddrO, rfWriteSliceO, rfWriteDataO, retireWriteIndex, hslot]
  · rw [hwr, if_low, hidx, hold]
    rcases hslices with hz | hslices
    · rw [hz]
      rfl
    · rw [hslices]

theorem begun_stays (hbegun : (t.core.slotNext x.port k).writeIndex ≠ 0) :
    (t.core.slotNext x.port k).working ∧ (t.core.slotNext x.port k).op = .load ∧
      (t.core.slotNext x.port k).allDone := by
  have hwr : (t.core.rfWriteFire x.port && t.core.retireSlot x.port == k) ∨
      (t.core.slot k).writeIndex ≠ 0 := by
    rcases h.writeIndex_stays hk hclr with ⟨hwr, -⟩ | ⟨-, hidx, -⟩
    · exact .inl hwr
    · exact .inr (hidx ▸ hbegun)
  obtain ⟨hwork, hop, hdone, hkills⟩ := h.writing_stays hk hclr hwr
  obtain ⟨hval, hkill, hflt, hsup⟩ := working_iff.mp hwork
  have hkept := slotNext_kept (i := x.port) hval
  refine ⟨working_iff.mpr ⟨?_, ?_, ?_, hkept.2.2.2.2.2.trans hsup⟩, hkept.2.1.trans hop, ?_⟩
  · simp [slotNext, hk.commit, hk.drain, hval]
  · rw [killed_cases hval hk.commit hk.drain, hkills, hkill, Bool.or_false]
  · rw [fault_next hval, not_settles hdone, hflt, Bool.false_and, Bool.or_false]
  · rw [allDone_iff] at hdone ⊢
    exact fun b hb => beatDone_mono hval (hdone b hb)

theorem index_stays :
    (t.core.slotNext x.port k).writeIndex < p.groupSlices (t.core.slot k).lmul := by
  have hold := (h.recorded k hk.lt hk.valid).index
  rcases h.writeIndex_stays hk hclr with ⟨-, hidx, hmore, -⟩ | ⟨-, hidx, -⟩
  · omega
  · omega

end

include hserved

theorem loaded_stays (hwork : (t.core.slotNext x.port k).working)
    (hop : (t.core.slot k).op = .load) (hb : b < p.groupBeats (t.core.slot k).lmul)
    (hdone : (t.core.slotNext x.port k).beatDone b) :
    ∃ data, (t.recordKept x (t.owner k)).loaded b = some data ∧ ∀ j < p.rfSlicesPerBeat,
        (t.core.slotNext x.port k).loadSlice (b * p.rfSlicesPerBeat + j) = data j := by
  obtain ⟨hwas, hkill, herr⟩ := hk.working hwork
  obtain ⟨-, hkilled, -, -⟩ := working_iff.mp hwas
  have hplc : ∀ j < p.rfSlicesPerBeat, (b * p.rfSlicesPerBeat + j) / p.rfSlicesPerBeat = b ∧
      (b * p.rfSlicesPerBeat + j) % p.rfSlicesPerBeat = j := by
    intro j hj
    rw [Nat.mul_comm, Nat.mul_add_div p.rfSlicesPerBeat_pos, Nat.mul_add_mod,
      Nat.div_eq_of_lt hj, Nat.mod_eq_of_lt hj]
    exact ⟨Nat.add_zero b, rfl⟩
  have hloaded : (t.recordKept x (t.owner k)).loaded b =
      (t.readAnswer x (t.owner k) b).or ((t.record (t.owner k)).loaded b) := rfl
  rw [hloaded, h.readAnswer_owner hserved hk.lt hk.valid]
  cases htake : t.core.takes x.port k b with
  | false =>
    have hold : (t.core.slot k).beatDone b := by
      rcases beatDone_cases hk.valid hdone with
        hold | ⟨hno, -⟩ | ⟨hno, -⟩ | ⟨hno, hno', -⟩
      · exact hold
      · rw [hno] at hkill
        cases hkill
      · rw [hno] at htake
        cases htake
      · rw [hno, hno'] at herr
        cases herr
    obtain ⟨data, hdata, hslice⟩ := (h.recorded k hk.lt hk.valid).loaded hwas hop b hb hold
    refine ⟨data, by simpa using hdata, fun j hj => ?_⟩
    rw [← hslice j hj]
    -- the response of this cycle, if there is one, is for another beat
    have hoth : (t.core.settles x.port k && !x.port.memRespErrorI &&
        (t.core.slot k).op == .load && (b * p.rfSlicesPerBeat + j) / p.rfSlicesPerBeat ==
          responseBeat x.port) = false := by
      rw [(hplc j hj).1]
      by_contra hno
      simp only [not_eq_false, and_eq_true, beq_iff_eq] at hno
      obtain ⟨⟨⟨hsettles, -⟩, -⟩, rfl⟩ := hno
      rw [(settles_iff.mp hsettles).1] at htake
      cases htake
    show (if t.core.settles x.port k && !x.port.memRespErrorI && (t.core.slot k).op == .load &&
      (b * p.rfSlicesPerBeat + j) / p.rfSlicesPerBeat == responseBeat x.port
        then _ else _) = _
    rw [hoth, if_low]
  | true =>
    have hleft := (takes_spec htake).2.2.2.2.2.2
    have hbeat := (takes_iff.mp htake).2.2
    have hretry : x.port.memRespRetryI = false := by
      rcases beatDone_cases hk.valid hdone with
        hold | ⟨hno, -⟩ | ⟨-, hwhy⟩ | ⟨hno, hno', -⟩
      · rw [hleft] at hold
        cases hold
      · rw [hno] at hkill
        cases hkill
      · exact hwhy.resolve_right (by simp [hkilled])
      · rw [hno, hno'] at herr
        cases herr
    have hsettles : t.core.settles x.port k := settles_iff.mpr ⟨hbeat ▸ htake, hretry⟩
    rw [hsettles, Bool.true_and] at herr
    refine ⟨x.port.memRespRdataI, by simp [hop, hretry, herr], fun j hj => ?_⟩
    simp [slotNext, hsettles, herr, hop, (hplc j hj).1, (hplc j hj).2, hbeat]

theorem mem_stored_stays (hb : b ∈ (t.recordKept x (t.owner k)).stored) :
    (t.core.slotNext x.port k).beatSent b ∧ (t.core.slot k).op = .store := by
  have hrec := h.recorded k hk.lt hk.valid
  have hstored : (t.recordKept x (t.owner k)).stored = t.storedNext x (t.owner k) := rfl
  rw [hstored, storedNext, h.sends_owner hk.lt hk.valid] at hb
  have hkept : b ∈ t.storedKept x (t.owner k) →
      (t.core.slotNext x.port k).beatSent b ∧ (t.core.slot k).op = .store := by
    intro hb
    rw [storedKept] at hb
    have hmem : b ∈ (t.record (t.owner k)).stored ∧ t.refused x (t.owner k) ≠ some b := by
      cases href : t.refused x (t.owner k) with
      | none =>
        rw [href] at hb
        exact ⟨hb, by simp⟩
      | some b' =>
        rw [href] at hb
        obtain ⟨hne, hmem⟩ := (h.storedOnce _).mem_erase_iff.mp hb
        exact ⟨hmem, fun heq => hne (Option.some.inj heq).symm⟩
    obtain ⟨hsent, hop⟩ := hrec.stored b hmem.1
    refine ⟨?_, hop⟩
    have hnot : (t.core.takes x.port k b && x.port.memRespRetryI) = false := by
      by_contra hno
      rw [not_eq_false, and_eq_true] at hno
      exact hmem.2 ((h.refused_owner hserved hk.lt hk.valid).mpr ⟨hno.1, hno.2, hop⟩)
    rw [beatSent_next hk.valid, hnot, hsent, Bool.false_and, Bool.or_true]
    rfl
  cases hsends : t.core.memReqFire x.port && t.core.requestSlot x.port == k &&
      (t.core.slot k).op == .store with
  | false =>
    rw [hsends] at hb
    exact hkept hb
  | true =>
    rw [hsends, if_pos rfl] at hb
    rcases List.mem_cons.mp hb with rfl | hb
    · simp only [and_eq_true, beq_iff_eq, VecLsuOp.beq_eq_decide, decide_eq_true_eq] at hsends
      obtain ⟨⟨hfire, hslot⟩, hop⟩ := hsends
      have hsend : t.core.sends x.port k (t.offered x).beat := sends_iff.mpr ⟨hfire, hslot, rfl⟩
      have hunsent := (requestable_spec (sends_spec hsend).2.2).2.1
      have hnot : t.core.takes x.port k (t.offered x).beat = false := by
        by_contra htake
        rw [(takes_spec (of_not_eq_false htake)).2.2.2.2.2.1] at hunsent
        cases hunsent
      refine ⟨?_, hop⟩
      rw [beatSent_next hk.valid, hnot, hsend]
      rfl
    · exact hkept hb

theorem stored_of_sent (hkill : (t.core.slotNext x.port k).killed = false)
    (hop : (t.core.slot k).op = .store)
    (hsent : (t.core.slotNext x.port k).beatSent b) : b ∈ (t.recordKept x (t.owner k)).stored := by
  rw [killed_cases hk.valid hk.commit hk.drain, or_eq_false_iff] at hkill
  show b ∈ t.storedNext x (t.owner k)
  rw [storedNext, h.sends_owner hk.lt hk.valid]
  rw [beatSent_next hk.valid, hkill.2, Bool.not_false, Bool.and_true,
    and_eq_true, not_eq_true'] at hsent
  obtain ⟨hnot, hsent⟩ := hsent
  rcases or_eq_true_iff.mp hsent with hsends | hwas
  · obtain ⟨hfire, hslot, hbeat⟩ := sends_iff.mp hsends
    have hcond : (t.core.memReqFire x.port && t.core.requestSlot x.port == k &&
        (t.core.slot k).op == .store) := by simp [hfire, hslot, hop]
    rw [hcond, if_pos rfl]
    exact List.mem_cons.mpr (.inl hbeat.symm)
  have hold := (h.recorded k hk.lt hk.valid).sent hkill.2 hop b hwas
  have hkept : b ∈ t.storedKept x (t.owner k) := by
    rw [storedKept]
    cases href : t.refused x (t.owner k) with
    | none => exact hold
    | some b' =>
      have hne : b ≠ b' := by
        rintro rfl
        obtain ⟨htake, hretry, -⟩ := (h.refused_owner hserved hk.lt hk.valid).mp href
        rw [htake, hretry] at hnot
        cases hnot
      exact (List.mem_erase_of_ne hne).mpr hold
  split
  · exact List.mem_cons_of_mem _ hkept
  · exact hkept

theorem recorded_stays (hclr : t.Clear x) : (t.step x).Recorded k := by
  have hrec := h.recorded k hk.lt hk.valid
  obtain ⟨-, hop, haddr, hvreg, hlmul, hunsupported⟩ := slotNext_kept (i := x.port) hk.valid
  have hslot : (t.step x).core.slot k = t.core.slotNext x.port k := rfl
  have hrecord := h.record_stays hk
  constructor
  · rw [hrecord, hslot, haddr, recordKept, h.promote_owner hk.lt hk.valid, if_low]
    exact hrec.pointer
  · rw [hrecord, hslot, fault_next hk.valid]
    show ((t.record (t.owner k)).faulted || t.faults x (t.owner k)) = _
    rw [h.faults_owner hserved hk.lt hk.valid, hrec.faulted, Bool.or_comm]
  · rw [hslot, hunsupported]
    exact fun hno b => beatDone_mono hk.valid (hrec.idle hno b)
  · exact fun b hb => h.kept_stays hk hclr hb
  · rw [hslot, hlmul]
    exact fun b hb => beatDone_mono hk.valid (hrec.outside b hb)
  · rw [hslot, hlmul]
    exact fun hwork b hb => h.sentDone_stays hk hwork hb
  · rw [hrecord, hslot, hlmul, hop]
    exact fun hwork hload b hb => h.loaded_stays hserved hk hwork hload hb
  · rw [hrecord, hslot, hlmul, hop, hvreg]
    exact h.gathered_stays hk
  · rw [hrecord]
    exact h.head_stays hk
  · rw [hrecord, hslot, hop]
    exact fun b => h.mem_stored_stays hserved hk
  · rw [hrecord, hslot, hop]
    exact fun hkill hstr b => h.stored_of_sent hserved hk hkill hstr
  · rw [hrecord, hslot, hvreg]
    exact h.written_stays hk hclr
  · exact h.begun_stays hk hclr
  · rw [hslot, hlmul]
    exact h.index_stays hk hclr

end Inv

namespace Inv

variable {p : VecLsuParams} {t : VecLsuLedger p} {x : VecLsuCycle p} {k b n : ℕ}
  (h : t.Inv) (hserved : t.Served x)
include h hserved

/-- What a cycle adds to the record of the command in front of the queue. -/
theorem record_pending (hpend : t.core.pendingValidQ) : ∃ head, (t.step x).record t.pendingId =
      { t.core.pendingQ.record with
        wasHead := head || t.isHead x t.pendingId
        killed := t.retires x t.pendingId && x.port.retireKillI
        pointer := if t.core.pendingPromote x.port then some x.port.gprReadDataI else none
        faulted := t.core.pendingPromote x.port && p.misaligned x.port.gprReadDataI } := by
  obtain ⟨head, hrec⟩ := h.fresh hpend
  refine ⟨head, ?_⟩
  -- nothing else in this cycle is about a command that has no slot
  have hapart : ∀ j < p.queueDepth, (t.core.slot j).valid →
      (t.owner j == t.pendingId) = false := fun j hj hval =>
    beq_eq_false_iff_ne.mpr (h.held.pendingApart hpend j hj hval)
  have hans : ∀ r, t.answered x = some r → r.command ≠ t.pendingId := by
    intro r hr
    obtain ⟨j, b, hfor, -⟩ := h.flights.takes_of_answered hserved hr
    rw [hfor.command]
    exact beq_eq_false_iff_ne.mp (hapart j hfor.slot_lt hfor.valid)
  have hgathered : (t.core.rfReadFire x.port && t.owner t.core.gatherSlot == t.pendingId) =
      false := by
    cases hfire : t.core.rfReadFire x.port with
    | false => rfl
    | true =>
      have hgathers : t.core.gathers x.port t.core.gatherSlot := by
        simp [gathers, hfire]
      obtain ⟨hlt, hgath, -, -⟩ := gathers_spec hgathers
      simp only [gathering, and_eq_true] at hgath
      exact hapart _ hlt (working_iff.mp hgath.1.1).1
  have hwritten : (t.core.rfWriteFire x.port &&
      t.owner (t.core.retireSlot x.port) == t.pendingId) = false := by
    cases hfire : t.core.rfWriteFire x.port with
    | false => rfl
    | true =>
      obtain ⟨hlt, hval, -⟩ := retireCommitSlot_spec (rfWriteFire_spec hfire).1
      exact hapart _ hlt hval
  have hsends : (t.core.memReqFire x.port && (t.offered x).write &&
      (t.offered x).command == t.pendingId) = false := by
    cases hfire : t.core.memReqFire x.port with
    | false => rfl
    | true =>
      obtain ⟨hlt, -, hreq, -⟩ := memReqFire_spec hfire
      have hval := (working_iff.mp (requestable_spec hreq).1).1
      show (_ && t.owner (t.core.requestSlot x.port) == t.pendingId) = false
      rw [hapart _ hlt hval, Bool.and_false]
  have href : t.refused x t.pendingId = none := by
    rw [refused, Option.bind_eq_none_iff]
    exact fun r hr => if_neg fun hcond => hans r hr hcond.1
  have hread : ∀ b, t.readAnswer x t.pendingId b = none := by
    intro b
    rw [readAnswer, Option.bind_eq_none_iff]
    exact fun r hr => if_neg fun hcond => hans r hr hcond.1
  have hfaults : t.faults x t.pendingId =
      (t.core.pendingPromote x.port && p.misaligned x.port.gprReadDataI) := by
    have hno : (t.answered x).any (fun r => r.command == t.pendingId) = false := by
      rw [Option.any_eq_false]
      exact fun r hr => by simpa using hans r hr
    rw [faults, hno]
    simp
  rw [recordNext_of_lt (h.held.pendingBorn hpend), recordKept, hgathered, hwritten, storedNext,
    hsends, storedKept, href, hfaults, hrec]
  simp only [hread, VecLsuCommand.record, Bool.false_or, Option.none_or, beq_self_eq_true,
    Bool.and_true, if_low]

/-- A slot that gets its command starts with a fresh record. -/
theorem recorded_promotes (hpromotes : t.core.promotes x.port k) : (t.step x).Recorded k := by
  obtain ⟨hprom, -, hpend, -, hemp⟩ := promotes_spec hpromotes
  obtain ⟨hsends, htake, hsettles, hgathers, hkills, hcom, hdr, -, hwr⟩ :=
    empty_quiet (i := x.port) hemp
  obtain ⟨hkill, hval⟩ := killed_of_promotes hpromotes
  obtain ⟨head, hpendingRecord⟩ := h.record_pending hserved hpend
  rw [hprom] at hpendingRecord
  have hown : (t.step x).owner k = t.pendingId := by simp [VecLsuLedger.step, hpromotes]
  have hrec := (congrArg (t.step x).record hown).trans hpendingRecord
  have hslot : (t.step x).core.slot k = t.core.slotNext x.port k := rfl
  have hflt : (t.core.slotNext x.port k).fault = p.misaligned x.port.gprReadDataI := by
    simp [slotNext, hsettles, hpromotes]
  have hunsupported : (t.core.slotNext x.port k).unsupported = t.core.pendingQ.unsupported := by
    simp [slotNext, hpromotes]
  have hlmul : (t.core.slotNext x.port k).lmul = t.core.pendingQ.lmul := by
    simp [slotNext, hpromotes]
  have hdone : ∀ b, (t.core.slotNext x.port k).beatDone b =
      (p.misaligned x.port.gprReadDataI || t.core.pendingQ.unsupported ||
        decide (p.groupBeats t.core.pendingQ.lmul ≤ b)) := by
    intro b
    simp [slotNext, hkills, htake, hsettles, hpromotes]
  have hsent : ∀ b, (t.core.slotNext x.port k).beatSent b = false := by
    intro b
    simp [slotNext, hsends, htake, hpromotes]
  have hidx : (t.core.slotNext x.port k).writeIndex = 0 := by
    have hno : (t.core.rfWriteFire x.port && !t.core.retireWriteLast x.port &&
        t.core.retireSlot x.port == k) = false := by
      rw [Bool.and_right_comm, hwr, Bool.false_and]
    simp [slotNext, hno, hpromotes]
  have hnotDone : (t.core.slotNext x.port k).working →
      ∀ b < p.groupBeats t.core.pendingQ.lmul, (t.core.slotNext x.port k).beatDone b = false := by
    intro hwork b hb
    obtain ⟨-, -, hnofault, hsup⟩ := working_iff.mp hwork
    rw [hdone, ← hflt, ← hunsupported, hnofault, hsup]
    simpa using hb
  constructor
  · rw [hrec, hslot]
    simp [slotNext, hpromotes]
  · rw [hrec, hslot, hflt]
    rfl
  · rw [hslot, hunsupported]
    exact fun hno b => by rw [hdone, hno, Bool.or_true, Bool.true_or]
  · rw [hslot]
    intro b _ hleft
    rw [hdone, or_eq_false_iff, or_eq_false_iff] at hleft
    exact .inr (working_iff.mpr ⟨hval, hkill, hflt.trans hleft.1.1, hunsupported.trans hleft.1.2⟩)
  · rw [hslot, hlmul]
    exact fun b hb => by rw [hdone, decide_eq_true hb, Bool.or_true]
  · rw [hslot, hlmul]
    intro hwork b hb hb'
    rw [hnotDone hwork b hb] at hb'
    cases hb'
  · rw [hslot, hlmul]
    intro hwork _ b hb hb'
    rw [hnotDone hwork b hb] at hb'
    cases hb'
  · rw [hrec, hslot]
    intro hwork hop
    obtain ⟨-, -, hnofault, hsup⟩ := working_iff.mp hwork
    have hstr : t.core.pendingQ.op = .store := by
      simpa [slotNext, hpromotes] using hop
    have hnot : (t.core.slotNext x.port k).gatherDone = false := by
      simp [slotNext, hgathers, hpromotes, hstr, hflt.symm.trans hnofault,
        hunsupported.symm.trans hsup]
    have hz : (t.core.slotNext x.port k).gatherIndex = 0 := by
      simp [slotNext, hgathers, hpromotes]
    rw [hnot, if_low, hz]
    exact ⟨rfl, fun _ => p.groupSlices_pos _⟩
  · rw [hrec, hslot]
    intro _ hord
    have hhead : t.core.pendingQ.op = .store ∧ x.port.orderedValidI ∧
        x.port.orderedTagI = t.core.pendingQ.tag := by
      simpa [slotNext, hcom, hemp, hpromotes, and_assoc] using hord
    have hlive := h.held.live_pending hpend
    have hishead : t.isHead x t.pendingId := by
      simp [isHead, hhead.2.1, hlive, h.held.pendingHolds hpend, hhead.2.2]
    rw [hishead, Bool.or_true]
  · rw [hrec]
    intro b hb
    cases hb
  · rw [hslot]
    intro _ _ b hb
    rw [hsent] at hb
    cases hb
  · rw [hrec, hslot, hidx]
    rfl
  · rw [hslot, hidx]
    exact fun hno => absurd rfl hno
  · rw [hslot, hidx]
    exact p.groupSlices_pos _

end Inv

namespace Inv

variable {p : VecLsuParams} {t : VecLsuLedger p} {x : VecLsuCycle p} {n : ℕ} (h : t.Inv)
include h

theorem fresh_step (hserved : t.Served x) (hpend : (t.step x).core.pendingValidQ) : ∃ head,
    (t.step x).record (t.step x).pendingId =
      { (t.step x).core.pendingQ.record with wasHead := head } := by
  rcases pending_step hpend with
    ⟨hfire, -, hid, hcmd⟩ | ⟨-, hkill, hprom, hold, hid, hcmd⟩
  · refine ⟨false, ?_⟩
    rw [hid, hcmd]
    show t.recordNext x t.dispatched = _
    simp [recordNext, hfire, VecLsuCommand.record]
  · obtain ⟨head, hrec⟩ := h.record_pending hserved hold
    refine ⟨head || t.isHead x t.pendingId, ?_⟩
    rw [hid, hcmd, hrec, h.held.retires_pending hold, hkill, hprom]
    rfl

theorem storedOnce_step : ((t.step x).record n).stored.Nodup := by
  show (t.recordNext x n).stored.Nodup
  rw [recordNext]
  split
  · exact List.nodup_nil
  have hkept : (t.storedKept x n).Nodup ∧ ∀ b ∈ t.storedKept x n, b ∈ (t.record n).stored := by
    rw [storedKept]
    cases t.refused x n with
    | none => exact ⟨h.storedOnce n, fun b hb => hb⟩
    | some b => exact ⟨(h.storedOnce n).erase b, fun _ hb => List.mem_of_mem_erase hb⟩
  show (t.storedNext x n).Nodup
  rw [storedNext]
  split
  · rename_i hcond
    simp only [and_eq_true, beq_iff_eq] at hcond
    obtain ⟨⟨hfire, -⟩, rfl⟩ := hcond
    refine List.nodup_cons.mpr ⟨fun hb => ?_, hkept.1⟩
    obtain ⟨hlt, -, hreq, -⟩ := memReqFire_spec hfire
    obtain ⟨hwork, hunsent, -⟩ := requestable_spec hreq
    have hsent := ((h.recorded _ hlt (working_iff.mp hwork).1).stored _ (hkept.2 _ hb)).1
    exact absurd_low (hunsent.symm.trans hsent)
  · exact hkept.1

/-- The command that a kill names has written nothing. -/
theorem written_of_kill (hclr : t.Clear x) (hretires : t.retires x n)
    (hkill : x.port.retireKillI) : (t.record n).written = [] := by
  rcases (h.held.live n).mp (retires_iff.mp hretires).2.2.1 with
    ⟨hpend, rfl⟩ | ⟨k, hk, hval, hkilled, rfl⟩
  · obtain ⟨head, hrec⟩ := h.fresh hpend
    rw [hrec]
    rfl
  · rw [h.held.retires_slot hclr hk hval hkilled, or_eq_true] at hretires
    rcases hretires with hkills | hcommits
    · have hslot := (kills_spec hkills).2.2.2.2.2
      rw [kills, and_eq_true] at hkills
      rw [(h.recorded k hk hval).written, ← hslot, (hclr.2.2 hkills.1).2]
      rfl
    · have hno := (retireCommitSlot_spec (commits_spec hcommits).1).2.2.2.2.1
      rw [hkill] at hno
      cases hno

theorem quiet_step (hclr : t.Clear x) (hkilled : ((t.step x).record n).killed) :
    n ∉ (t.step x).live ∧ ((t.step x).record n).written = [] := by
  have hrec : (t.step x).record n = t.recordNext x n := rfl
  rw [hrec, recordNext] at hkilled ⊢
  cases hnew : t.core.dispatchFire x.port && t.dispatched == n with
  | true =>
    rw [hnew] at hkilled
    cases hkilled
  | false =>
    rw [hnew, if_low] at hkilled
    rw [if_low]
    have hold : t.retires x n ∨ n ∉ t.live := by
      rcases or_eq_true_iff.mp hkilled with hwas | hnow
      · exact .inr (h.quiet n hwas).1
      · exact .inl (and_eq_true_iff.mp hnow).1
    have hgone : n ∉ (t.step x).live := by
      rw [mem_live_step]
      rintro (⟨hlive, hstays⟩ | ⟨hfire, rfl⟩)
      · rcases hold with hretires | hdead
        · rw [hretires] at hstays
          cases hstays
        · exact hdead hlive
      · simp [hfire] at hnew
    refine ⟨hgone, ?_⟩
    -- the slot that writes is neither killed nor being killed
    have hquiet : (t.core.rfWriteFire x.port &&
        t.owner (t.core.retireSlot x.port) == n) = false := by
      by_contra hwr
      rw [not_eq_false, and_eq_true, beq_iff_eq] at hwr
      obtain ⟨hfire, rfl⟩ := hwr
      obtain ⟨hlt, hval, -, -, hkeep, -, -, halive⟩ :=
        retireCommitSlot_spec (rfWriteFire_spec hfire).1
      rcases or_eq_true_iff.mp hkilled with hwas | hnow
      · exact (h.quiet _ hwas).1 (h.held.live_slot hlt hval halive)
      · rw [(and_eq_true_iff.mp hnow).2] at hkeep
        cases hkeep
    show (if t.core.rfWriteFire x.port && t.owner (t.core.retireSlot x.port) == n then _
      else (t.record n).written) = []
    rw [hquiet, if_low]
    rcases or_eq_true_iff.mp hkilled with hwas | hnow
    · exact (h.quiet n hwas).2
    · obtain ⟨hretires, hkill⟩ := and_eq_true_iff.mp hnow
      exact h.written_of_kill hclr hretires hkill

theorem step (hserved : t.Served x) (hclr : t.Clear x) : (t.step x).Inv where
  held := h.held.step hserved hclr
  flights := h.flights.step hserved hclr
  recorded k hk hval := by
    rcases h.held.slot_step hval with ⟨hpromotes, -⟩ | ⟨hold, -, hcom, hdr, -⟩
    · exact h.recorded_promotes hserved hpromotes
    · exact h.recorded_stays hserved ⟨hk, hold, hcom, hdr⟩ hclr
  fresh := h.fresh_step hserved
  storedOnce _ := h.storedOnce_step
  quiet _ := h.quiet_step hclr

/-- A commit is that of the slot of its command, which has nothing left to do. -/
theorem commit_slot (hclr : t.Clear x) (hretires : t.retires x n)
    (hkeep : x.port.retireKillI = false) : ∃ k < p.queueDepth,
      (t.core.slot k).valid ∧ (t.core.slot k).killed = false ∧ t.owner k = n ∧
      (t.core.slot k).allDone ∧ t.core.commits x.port k := by
  rcases (h.held.live n).mp (retires_iff.mp hretires).2.2.1 with
    ⟨hpend, rfl⟩ | ⟨k, hk, hval, hkill, rfl⟩
  · rw [h.held.retires_pending hpend] at hretires
    rw [(killPending_spec hretires).2.1] at hkeep
    cases hkeep
  · rw [h.held.retires_slot hclr hk hval hkill, or_eq_true] at hretires
    rcases hretires with hkills | hcommits
    · rw [(kills_spec hkills).2.2.2.2.1] at hkeep
      cases hkeep
    · obtain ⟨hcom, -, hslot⟩ := commits_spec hcommits
      exact ⟨k, hk, hval, hkill, rfl, hslot ▸ (retireCommitSlot_spec hcom).2.2.2.2.2.2.1, hcommits⟩

/-- A command without a fault is one whose slot is worked on. -/
theorem working_of_commit (hk : k < p.queueDepth) (hval : (t.core.slot k).valid)
    (hkill : (t.core.slot k).killed = false)
    (hsup : (t.record (t.owner k)).command.unsupported = false)
    (hflt : (t.record (t.owner k)).faulted = false) :
    (t.core.slot k).working ∧ p.groupBeats (t.core.slot k).lmul ≤ p.maxBeats := by
  have hholds := h.held.holds k hk hval
  refine ⟨working_iff.mpr ⟨hval, hkill,
    (h.recorded k hk hval).faulted.symm.trans hflt, hholds.unsupported.trans hsup⟩, ?_⟩
  rw [hholds.lmul]
  exact p.groupBeats_le (VecLsuCommand.supported hsup).2

/-- The commit of a load writes the last slice of its group. -/
theorem written_of_commit (hk : k < p.queueDepth) (hcommits : t.core.commits x.port k)
    (hwork : (t.core.slot k).working) (hop : (t.core.slot k).op = .load) :
    ((t.step x).record (t.owner k)).written =
      p.groupImage (t.core.slot k).vreg (p.groupSlices (t.core.slot k).lmul)
        (t.core.slot k).loadSlice := by
  obtain ⟨hval, -, hflt, hsup⟩ := working_iff.mp hwork
  obtain ⟨hcom, hrdy, hslot⟩ := commits_spec hcommits
  have hkeep := (retireCommitSlot_spec hcom).2.2.2.2.1
  have hload : t.core.retireLoadWrite x.port := by
    simp [retireLoadWrite, hcom, hslot, hop, hflt, hsup]
  have hends : t.core.rfWriteFire x.port ∧ t.core.retireWriteLast x.port := by
    simpa [retireReadyO, killPending, retireKillSlot, hkeep, hcom, hload] using hrdy
  have hlast : (t.core.slot k).writeIndex + 1 = p.groupSlices (t.core.slot k).lmul := by
    simpa [retireWriteLast, retireWriteIndex, hslot] using hends.2
  rw [recordNext_of_lt (h.held.born k hk hval), recordKept, h.writes_owner hk hval,
    hends.1, hslot, beq_self_eq_true, Bool.and_self, if_pos rfl,
    (h.recorded k hk hval).written, ← hlast, groupImage_succ]
  simp [writtenNow, rfWriteAddrO, rfWriteSliceO, rfWriteDataO, retireWriteIndex, hslot]

/-- The slot that makes a request, and the record of its command. -/
theorem request_slot (hfire : t.core.memReqFire x.port) :
    ∃ k < p.queueDepth, t.core.requestSlot x.port = k ∧ (t.core.slot k).valid ∧
      (t.core.slot k).requestable x.port (t.offered x).beat ∧
      (t.offered x).command = t.owner k ∧ t.Recorded k ∧
      Holds (t.core.slot k) (t.record (t.owner k)).command := by
  obtain ⟨hk, -, hreq, -⟩ := memReqFire_spec hfire
  have hval := (working_iff.mp (requestable_spec hreq).1).1
  exact ⟨_, hk, rfl, hval, hreq, rfl, h.recorded _ hk hval, h.held.holds _ hk hval⟩

theorem request_exact (hfire : t.core.memReqFire x.port) : ∃ base,
    (t.record (t.offered x).command).pointer = some base ∧
      (t.offered x).beat < p.groupBeats (t.record (t.offered x).command).command.lmul ∧
      (t.offered x).addr = base + BitVec.ofNat _ ((t.offered x).beat * p.memBytes) := by
  obtain ⟨k, -, hslot, -, hreq, hcmd, hrec, hholds⟩ := h.request_slot hfire
  have hleft := (requestable_spec hreq).2.2.1
  rw [hcmd]
  refine ⟨(t.core.slot k).addr, hrec.pointer, ?_, ?_⟩
  · rw [← hholds.lmul]
    by_contra hno
    rw [hrec.outside _ (Nat.le_of_not_lt hno)] at hleft
    cases hleft
  · show (t.core.slot (t.core.requestSlot x.port)).addr + _ = _
    rw [hslot]
    rfl

theorem store_exact (hfire : t.core.memReqFire x.port) (hwr : (t.offered x).write) :
    ((t.step x).record (t.offered x).command).wasHead ∧
    (t.offered x).beat ∉ (t.record (t.offered x).command).stored ∧
    (∃ data, (t.record (t.offered x).command).gathered =
        p.groupImage (t.record (t.offered x).command).command.vreg
          (p.groupSlices (t.record (t.offered x).command).command.lmul) data ∧
      ∀ n, (t.offered x).wdata n = data ((t.offered x).beat * p.rfSlicesPerBeat + n)) ∧
    ∀ n, (t.offered x).wstrb n ↔ (t.offered x).beat * p.memBytes + n <
      p.groupBytes (t.record (t.offered x).command).command.lmul := by
  obtain ⟨k, hk, hslot, hval, hreq, hcmd, hrec, hholds⟩ := h.request_slot hfire
  obtain ⟨hwork, hunsent, -, hwhy⟩ := requestable_spec hreq
  have hkill := (working_iff.mp hwork).2.1
  have hstr : (t.core.slot k).op = .store := by
    have : (t.core.memReqValidO x.port && _) := hwr
    rw [hslot] at this
    simpa using (and_eq_true_iff.mp this).2
  obtain ⟨-, hgathered, hhead⟩ := hwhy.resolve_left (by simp [hstr])
  rw [hcmd, ← hholds.lmul, ← hholds.vreg]
  refine ⟨?_, ?_, ⟨(t.core.slot k).storeSlice, ?_, ?_⟩, ?_⟩
  · rw [recordNext_of_lt (h.held.born k hk hval)]
    show ((t.record (t.owner k)).wasHead || t.isHead x (t.owner k))
    rw [or_eq_true]
    refine hhead.imp (hrec.head hkill) fun hnow => ?_
    simp only [atHead, and_eq_true, beq_iff_eq] at hnow
    simp [isHead, hnow.1, h.held.live_slot hk hval hkill, hnow.2, hholds.tag]
  · intro hb
    rw [(hrec.stored _ hb).1] at hunsent
    cases hunsent
  · rw [(hrec.gathered hwork hstr).1, hgathered, if_pos rfl]
  · intro n
    show (t.core.slot (t.core.requestSlot x.port)).storeSlice _ = _
    rw [hslot]
    rfl
  · intro n
    have hshow : t.core.memReqWriteO x.port := hwr
    show (t.core.memReqWriteO x.port && decide (_ < p.groupBytes
      (t.core.slot (t.core.requestSlot x.port)).lmul)) ↔ _
    rw [hshow, hslot, Bool.true_and, decide_eq_true_iff]
    rfl

theorem exact (hserved : t.Served x) (hclr : t.Clear x) : t.Exact x where
  attributed r hr huse := by
    obtain ⟨k, b, hfor, htake⟩ := h.flights.takes_of_answered hserved hr
    obtain ⟨-, hslot, hbeat⟩ := takes_iff.mp htake
    rw [hslot, hbeat]
    exact ⟨hfor.command.symm, hfor.beat.symm⟩
  freed k hk hval hfree r hr hcmd := by
    obtain ⟨k', b, hfor⟩ := (h.flights.step hserved hclr).forBeat r hr
    rcases h.held.slot_step hfor.valid with ⟨-, hown, hpend, -⟩ | ⟨hold, hown, -⟩
    · exact h.held.pendingApart hpend k hk hval (hcmd.symm.trans (hfor.command.trans hown))
    · obtain rfl := h.held.distinct k' hfor.slot_lt k hk hold hval
        (hown.symm.trans (hfor.command.symm.trans hcmd))
      exact absurd_low (hfree.symm.trans hfor.valid)
  kept k hk hval b hb hleft := by
    cases hsent : (t.core.slot k).beatSent b with
    | true =>
      obtain ⟨r, hr, htag⟩ := h.flights.outstanding k hk hval b hb hsent hleft
      obtain ⟨k', b', hfor⟩ := h.flights.forBeat r hr
      obtain ⟨rfl, rfl⟩ := p.tag_inj hb hfor.beat_lt (htag.symm.trans hfor.tag)
      exact .inl ⟨r, hr, hfor.command, hfor.beat⟩
    | false =>
      have hwork := ((h.recorded k hk hval).kept b hb hleft).resolve_left (by simp [hsent])
      have hsup := (working_iff.mp hwork).2.2.2
      have hholds := h.held.holds k hk hval
      rw [hholds.unsupported] at hsup
      have hop := (VecLsuCommand.supported hsup).1
      rw [← hholds.op] at hop
      exact .inr ⟨hwork, hop, hsent, hleft⟩
  request := h.request_exact
  load n hretires hkeep hop hsup hflt := by
    obtain ⟨k, hk, hval, hkill, rfl, hdone, hcommits⟩ := h.commit_slot hclr hretires hkeep
    obtain ⟨hwork, hbeats⟩ := h.working_of_commit hk hval hkill hsup hflt
    have hholds := h.held.holds k hk hval
    rw [← hholds.op] at hop
    rw [← hholds.lmul, ← hholds.vreg]
    have hloaded := (h.recorded k hk hval).loaded hwork hop
    rw [allDone_iff] at hdone
    refine ⟨fun b hb => ?_, ?_⟩
    · obtain ⟨data, hdata, -⟩ := hloaded b hb (hdone b (hb.trans_le hbeats))
      rw [hdata]
      rfl
    · rw [h.written_of_commit hk hcommits hwork hop]
      apply groupImage_congr
      intro j hj
      have hb := p.groupBeats_of_slice hj
      obtain ⟨data, hdata, hslice⟩ := hloaded _ hb (hdone _ (hb.trans_le hbeats))
      rw [VecLsuRecord.loadedSlice, hdata]
      have hat := hslice _ (Nat.mod_lt j p.rfSlicesPerBeat_pos)
      rwa [Nat.mul_comm, Nat.div_add_mod] at hat
  store := h.store_exact
  storedOnce := h.storedOnce
  storedAll n hretires hkeep hop hsup hflt j hj := by
    obtain ⟨k, hk, hval, hkill, rfl, hdone, -⟩ := h.commit_slot hclr hretires hkeep
    obtain ⟨hwork, hbeats⟩ := h.working_of_commit hk hval hkill hsup hflt
    have hholds := h.held.holds k hk hval
    rw [← hholds.op] at hop
    rw [← hholds.lmul] at hj
    have hb := p.groupBeats_of_byte hj
    have hrec := h.recorded k hk hval
    exact hrec.sent hkill hop _ (hrec.sentDone hwork _ hb
      (allDone_iff.mp hdone _ (hb.trans_le hbeats)))
  killed n hkill := (h.quiet_step hclr hkill).2

end Inv

theorem inv_reset {p : VecLsuParams} {t : VecLsuLedger p} (hinit : (vecLsu p).Init t) : t.Inv := by
  obtain ⟨hcore, hdispatched, hlive, hflight, hrec⟩ := hinit
  have hemp : ∀ k, (t.core.slot k).valid = false := fun k => by rw [hcore]; rfl
  have hpend : t.core.pendingValidQ = false := by rw [hcore]; rfl
  have hno : ∀ {P : Prop} {k}, (t.core.slot k).valid → P := by
    intro P k hval
    rw [hemp] at hval
    cases hval
  have hnot : ∀ {P : Prop}, t.core.pendingValidQ → P := by
    intro P hval
    rw [hpend] at hval
    cases hval
  refine ⟨⟨?_, fun _ _ h => hno h, fun _ _ _ _ h => hno h, fun _ _ h => hno h, fun h => hnot h,
    fun h => hnot h, fun h => hnot h, ?_, ?_⟩, ⟨?_, fun _ _ h => hno h, ?_⟩,
    fun _ _ h => hno h, fun h => hnot h, ?_, ?_⟩
  · rw [hcore]
    exact p.depth_pos
  · intro n
    rw [hlive, hpend]
    simp [hemp]
  · rw [hlive]
    simp
  · rw [hflight]
    simp
  · rw [hflight]
    exact List.nodup_nil
  · intro n
    rw [hrec]
    exact List.nodup_nil
  · intro n hkill
    rw [hrec] at hkill
    cases hkill

end VecLsuLedger

end OpenRV64
