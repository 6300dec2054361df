/-
The return-address stack against a stack without bounds: whatever the predictor sends a return
to is the link of the innermost call that is still open.
-/
import OpenRV64.BranchTargetCheck
import OpenRV64.StackRing

namespace OpenRV64

open Sync StackRing

/-! ## The calls that are open -/

/-- What a cycle makes of the links of the open calls, the innermost first. -/
def BpInput.callsNext (i : BpInput) (calls : List (BitVec 64)) : List (BitVec 64) :=
  if i.rasContextFlushI then []
  else
    match i.resolvePush, i.resolvePop with
    | true, false => (i.resolvePcI + 4) :: calls
    | false, true => calls.tail
    | true, true => (i.resolvePcI + 4) :: calls.tail
    | false, false => calls

section Past

variable {p : BpParams}

/-- The links of the calls that are open since the context last changed. -/
def openCalls (past : Past (BpState p) BpInput) : List (BitVec 64) :=
  past.foldr (fun c calls => c.2.callsNext calls) []

/-- How deep the calls have been nested since then. -/
def deepest : Past (BpState p) BpInput → ℕ
  | [] => 0
  | c :: past =>
    if c.2.rasContextFlushI then 0 else max (deepest past) (openCalls (c :: past)).length

end Past

/-! ## The ring -/

namespace Ras

variable {depth : ℕ} {r : Ras depth} {i : BpInput} {calls : List (BitVec 64)} {deep : ℕ}

/-- The ring holds the innermost calls, and all of them if they were never nested deeper than
it is. -/
structure Tracks (r : Ras depth) (calls : List (BitVec 64)) (deep : ℕ) : Prop where
  held : Holds r.stackQ r.spQ r.countQ.toNat calls
  all : deep ≤ depth → calls.length = r.countQ.toNat

theorem count_lt : depth < 2 ^ clog2 (depth + 1) := Nat.lt_of_succ_le (le_two_pow_clog2 (depth + 1))

theorem full_iff {count : BitVec (clog2 (depth + 1))} : full count ↔ count.toNat = depth := by
  rw [full, beq_iff_eq, ← BitVec.toNat_inj, BitVec.toNat_ofNat, Nat.mod_eq_of_lt count_lt]

theorem full_eq_false {count : BitVec (clog2 (depth + 1))} (h : count.toNat < depth) :
    full count = false := Bool.eq_false_iff.mpr fun hfull => h.ne (full_iff.mp hfull)

theorem count_eq_zero {count : BitVec (clog2 (depth + 1))} : count.toNat = 0 ↔ count = 0 := by
  rw [← BitVec.toNat_inj]
  simp

theorem toNat_count_succ {count : BitVec (clog2 (depth + 1))} (h : count.toNat < depth) :
    (count + 1).toNat = count.toNat + 1 := by
  have hfits : count.toNat + 1 < 2 ^ clog2 (depth + 1) :=
    Nat.lt_of_le_of_lt (Nat.succ_le_of_lt h) count_lt
  have hone : (1 : BitVec (clog2 (depth + 1))).toNat = 1 :=
    Nat.mod_eq_of_lt (Nat.lt_of_le_of_lt (Nat.le_add_left _ _) hfits)
  rw [BitVec.toNat_add_of_lt (by rwa [hone]), hone]

theorem toNat_count_pred {count : BitVec (clog2 (depth + 1))} (h : count ≠ 0) :
    count.toNat = (count - 1).toNat + 1 := by
  have hpos : 1 ≤ count.toNat := Nat.one_le_iff_ne_zero.mpr (mt count_eq_zero.mp h)
  have hone : (1 : BitVec (clog2 (depth + 1))).toNat = 1 :=
    Nat.mod_eq_of_lt (Nat.lt_of_le_of_lt hpos count.isLt)
  rw [BitVec.toNat_sub_of_le (BitVec.le_def.mpr (by rwa [hone])), hone, Nat.sub_add_cancel hpos]

theorem pop_of_zero (h : r.countQ = 0) : r.pop = r := if_neg (by simp [h])

theorem pop_of_ne (h : r.countQ ≠ 0) :
    r.pop = { r with spQ := r.spQ - 1, countQ := r.countQ - 1 } := if_pos (bne_iff_ne.mpr h)

theorem tracks_empty (h : r.countQ = 0) : r.Tracks [] 0 := by
  have hz := count_eq_zero.mpr h
  refine ⟨?_, fun _ => hz.symm⟩
  rw [hz]
  exact holds_empty

theorem Tracks.mono (h : r.Tracks calls deep) {deep' : ℕ} (hle : deep ≤ deep') :
    r.Tracks calls deep' := ⟨h.held, fun hnested => h.all (Nat.le_trans hle hnested)⟩

theorem Tracks.pending (h : r.Tracks calls deep) (pending : BitVec (clog2 (depth + 1))) :
    Tracks { r with pendingCallsQ := pending } calls deep := ⟨h.held, h.all⟩

section Step

variable (h : r.Tracks calls deep) (hdepth : 2 ^ clog2 depth = depth)
include h

theorem Tracks.not_full (hnested : max deep (calls.length + 1) ≤ depth) :
    calls.length = r.countQ.toNat ∧ r.countQ.toNat < depth := by
  have hall := h.all (Nat.le_trans (Nat.le_max_left _ _) hnested)
  exact ⟨hall, hall ▸ Nat.le_trans (Nat.le_max_right _ _) hnested⟩

include hdepth in
theorem Tracks.push (pc : BitVec 64) :
    (r.push pc).Tracks ((pc + 4) :: calls) (max deep (calls.length + 1)) := by
  have hle := h.held.fits
  rw [hdepth] at hle
  cases hfull : full r.countQ with
  | true =>
    have hcnt := full_iff.mp hfull
    have hnxt : (r.push pc).countQ = r.countQ := by rw [Ras.push, hfull, if_pos rfl]
    refine ⟨?_, fun hnested => ?_⟩
    · rw [hnxt]
      exact h.held.push (Nat.le_succ _) h.held.fits
    · exact absurd hcnt (h.not_full hnested).2.ne
  | false =>
    have hlt : r.countQ.toNat < depth :=
      Nat.lt_of_le_of_ne hle fun heq => by rw [full_iff.mpr heq] at hfull; cases hfull
    have hnxt : (r.push pc).countQ.toNat = r.countQ.toNat + 1 := by
      rw [Ras.push, hfull, if_low, toNat_count_succ hlt]
    refine ⟨?_, fun hnested => ?_⟩
    · rw [hnxt]
      exact h.held.push (Nat.le_refl _) (hdepth.symm ▸ hlt)
    · rw [hnxt, List.length_cons, (h.not_full hnested).1]

theorem Tracks.pop : r.pop.Tracks calls.tail deep := by
  by_cases hz : r.countQ = 0
  · rw [pop_of_zero hz]
    refine ⟨?_, fun hnested => ?_⟩
    · rw [count_eq_zero.mpr hz]
      exact holds_empty
    · rw [List.length_tail, h.all hnested, count_eq_zero.mpr hz]
  · have hnxt := toNat_count_pred hz
    have hheld := h.held
    rw [hnxt] at hheld
    rw [pop_of_ne hz]
    exact ⟨hheld.pop, fun hnested => by rw [List.length_tail, h.all hnested, hnxt]; rfl⟩

include hdepth in
/-- The old top is popped before the new link is pushed. -/
theorem Tracks.popPush_eq (pc : BitVec 64) : r.popPush pc = r.pop.push pc := by
  have hle := h.held.fits
  rw [hdepth] at hle
  by_cases hz : r.countQ = 0
  · have hpos : 0 < depth := Nat.lt_of_lt_of_eq (Nat.two_pow_pos _) hdepth
    have hroom : full r.countQ = false :=
      full_eq_false (Nat.lt_of_le_of_lt (count_eq_zero.mpr hz).le hpos)
    rw [pop_of_zero hz, Ras.popPush, if_neg (by simp [hz]), Ras.push, hroom, if_low]
  · rw [toNat_count_pred hz] at hle
    rw [pop_of_ne hz, Ras.popPush, if_pos (bne_iff_ne.mpr hz), Ras.push, full_eq_false hle,
      if_low, BitVec.sub_add_cancel, BitVec.sub_add_cancel]
    rfl

include hdepth in
theorem Tracks.step : (r.step i).Tracks (i.callsNext calls)
    (if i.rasContextFlushI then 0 else max deep (i.callsNext calls).length) := by
  rw [Ras.step, BpInput.callsNext]
  cases i.rasContextFlushI with
  | true => exact tracks_empty rfl
  | false =>
  rw [if_low, if_low, if_low, Ras.stackNext]
  cases i.resolvePush <;> cases i.resolvePop
  · exact (h.mono (Nat.le_max_left _ _)).pending _
  · exact (h.pop.mono (Nat.le_max_left _ _)).pending _
  · exact (h.push hdepth _).pending _
  · rw [h.popPush_eq hdepth]
    exact (h.pop.push hdepth _).pending _

end Step

end Ras

/-! ## Every run -/

namespace BpState

variable {p : BpParams} {past : Past (BpState p) BpInput} {s : BpState p}

theorem ras_tracks (hdepth : 2 ^ clog2 p.rasDepth = p.rasDepth)
    (hrun : Run (bpCircuit p) anyEnv past s) : s.ras.Tracks (openCalls past) (deepest past) := by
  refine hrun.invariant (P := fun past s => s.ras.Tracks (openCalls past) (deepest past)) ?_ ?_
  · rintro s ⟨s', rfl⟩
    exact Ras.tracks_empty rfl
  · exact fun past s i _ _ h => h.step hdepth

/-- A return is sent to the link of the innermost open call or nowhere.  While the calls have
not been nested deeper than the ring, it is sent there whenever no call is in flight. -/
theorem return_predicted (hdepth : 2 ^ clog2 p.rasDepth = p.rasDepth)
    (hrun : Run (bpCircuit p) anyEnv past s) {i : BpInput} (hreturn : i.lookupReturn) :
    (s.predictionTargetValidO i → (openCalls past).head? = some (s.predictionTargetO i)) ∧
      (deepest past ≤ p.rasDepth → (s.predictionTargetValidO i ↔
        p.bpType.policyStallsAll = false ∧ p.enableRas ∧ s.ras.pendingCallsQ = 0 ∧
          openCalls past ≠ [])) := by
  have htracks := ras_tracks hdepth hrun
  have hvalid : i.lookupValidI := by
    simp only [BpInput.lookupReturn, Bool.and_eq_true] at hreturn
    exact hreturn.1.1.1.1
  have hpredicted : s.predictionTargetValidO i = s.rasPredictionValid i := by
    rw [predictionTargetValidO, TargetTable.predictionTargetValidO,
      TargetTable.selectedTargetValid, hreturn, if_pos rfl, hvalid, Bool.true_and, ite_self]
  have hras : s.rasPredictionValid i ↔ p.bpType.policyStallsAll = false ∧ p.enableRas ∧
      s.ras.countQ ≠ 0 ∧ s.ras.pendingCallsQ = 0 := by
    simp [rasPredictionValid, Ras.predictionValidO, hreturn]
  have htarget : s.predictionTargetO i = s.rasPredictionTarget := by
    rw [predictionTargetO, TargetTable.selectedTarget, hreturn, if_pos rfl, ite_self]
  rw [hpredicted, htarget]
  refine ⟨fun h => ?_, fun hnested => hras.trans ?_⟩
  · obtain ⟨-, henable, hcount, -⟩ := hras.mp h
    rw [rasPredictionTarget, if_pos henable]
    exact htracks.held.top (Ras.toNat_count_pred hcount ▸ Nat.succ_pos _)
  · have hempty : openCalls past ≠ [] ↔ s.ras.countQ ≠ 0 := by
      rw [← List.length_pos_iff, htracks.all hnested, Nat.pos_iff_ne_zero, Ne, Ras.count_eq_zero]
    rw [hempty]
    tauto

/-- A call of eight that may be open, and a return behind it. -/
theorem return_predicted_call :
    (openCalls (exec (bpCircuit btfntParams) [] (powerUpBp btfntParams).reset
      callThenReturn).1).head? = some 0x1004 := by
  have hrun := exec_run callThenReturn (.reset (powerUpBp_init btfntParams))
  have hpredicted := (return_predicted (by decide +kernel) hrun
    (i := allocateControl returnInstr 0x2000) (by decide +kernel)).1 (by decide +kernel)
  rw [hpredicted]
  decide +kernel

end BpState

end OpenRV64
