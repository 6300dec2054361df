/-
What each action of the native L2's lookup stage says about the beat, and which miss
register each event of a cycle names.
-/
import OpenRV64.L2Update

namespace OpenRV64

open Bool (not_eq_true' or_eq_true not_eq_true eq_false_iff and_eq_true)
open List (mem_of_find?_eq_some find?_some mem_range range)
open LookupAction (immediate)

namespace L2State

variable {p : L2Params} {s : L2State p} {i : L2Input p} {k : ℕ}

/-- Nothing turns the beat away: no error, no generated page, no failed SC, no fence. -/
structure Plain (s : L2State p) : Prop where
  protocol : s.lookupProtocolErrorQ = false
  hart : s.coherenceHartError = false
  invariant : s.lookupInvariantMatch = false
  sc : s.lookupScFailed = false
  fence : s.lookup.op ≠ icxOpFence

/-- A beat that goes through the cache. -/
structure Cached (s : L2State p) : Prop extends Plain s where
  cacheable : s.lookupCacheable = true

/-- The beat merges into a miss register of its line. -/
structure Merges (s : L2State p) (i : L2Input p) : Prop extends Cached s where
  found : s.mshrMatch = some s.lookupMshrIndex
  mergeable : s.mshrMergeable s.lookupMshrIndex = true
  write : s.lookupCoherentWrite = true → p.enableCoherence = false
  probe : s.probeNeeded i = true → s.privateProbeNeeded i = true ∧
    (s.mshr s.lookupMshrIndex).cohAction = .allocate ∧ s.probing s.lookupMshrIndex = true

/-- No miss register has to do with the line of the beat. -/
structure Unowned (s : L2State p) : Prop extends Cached s where
  unmatched : s.mshrMatch = none
  noVictim : s.dirtyVictim = none

theorem getD_of_isSome {o : Option ℕ} {d : ℕ} (h : o.isSome) : o = some (o.getD d) := by
  cases o with
  | none => cases h
  | some k => rfl

/-! ## The base action, branch by branch -/

theorem answered_or_blocked {b : Bool} (hnone : (if b then immediate else .none) ≠ .none)
    (himm : (if b then immediate else .none) ≠ .immediate) : False := by
  cases b with
  | false => exact hnone rfl
  | true => exact himm rfl

theorem plain_of_base
    (h : s.lookupBaseAction i ≠ .none ∧ s.lookupBaseAction i ≠ .immediate) : s.Plain := by
  obtain ⟨hnone, himm⟩ := h
  rw [lookupBaseAction] at hnone himm
  by_cases herr : (s.lookupProtocolErrorQ || s.coherenceHartError)
  · rw [if_pos herr] at hnone himm
    exact (answered_or_blocked hnone himm).elim
  rw [if_neg herr] at hnone himm
  rw [not_eq_true, Bool.or_eq_false_iff] at herr
  by_cases hinv : s.lookupInvariantMatch
  · rw [if_pos hinv] at hnone himm
    exact (answered_or_blocked hnone himm).elim
  rw [if_neg hinv] at hnone himm
  by_cases hsc : s.lookupScFailed
  · rw [if_pos hsc] at hnone himm
    exact (answered_or_blocked hnone himm).elim
  rw [if_neg hsc] at hnone himm
  by_cases hfen : (s.lookup.op == icxOpFence)
  · rw [if_pos hfen] at hnone himm
    exact (answered_or_blocked hnone himm).elim
  exact ⟨herr.1, herr.2, eq_false_iff.mpr hinv, eq_false_iff.mpr hsc,
    fun h => hfen (beq_iff_eq.mpr h)⟩

/-- What the base action of a plain beat says of the beat. -/
inductive BaseOutcome (s : L2State p) (i : L2Input p) : LookupAction → Prop
  | none : BaseOutcome s i .none
  | bypass (hcache : s.lookupCacheable = false)
      (hfree : s.mshrFree = some s.mshrFreeIndex) : BaseOutcome s i .bypass
  | merge (hmerges : s.Merges i) : BaseOutcome s i .merge
  | victimHit (hcached : s.Cached) (hmatch : s.mshrMatch = Option.none)
      (hvictim : s.dirtyVictim = some (s.dirtyVictim.getD 0)) (hread : s.lookupIsRead = true)
      (hready : s.hitSlotReady i = true) : BaseOutcome s i .victimHit
  | hit (hunowned : s.Unowned) (hway : s.hitWay = some s.lookupHitWay)
      (hready : s.hitSlotReady i = true)
      (hwrite : s.lookupIsWrite = true → s.lookupSramWriteBlocked i = false) :
      BaseOutcome s i .hit
  | writeAround (hunowned : s.Unowned) (hway : s.hitWay = Option.none)
      (hwrite : s.lookupIsWrite = true)
      (hsc : ¬ (p.enableCoherence = true ∧ s.lookup.op = icxOpSc))
      (hfree : s.mshrFree = some s.mshrFreeIndex) : BaseOutcome s i .writeAround
  | alloc (hunowned : s.Unowned) (hway : s.hitWay = Option.none)
      (hsc : s.lookupIsWrite = true → p.enableCoherence = true ∧ s.lookup.op = icxOpSc)
      (hfree : s.mshrFree = some s.mshrFreeIndex) (hvictim : s.victim = some s.victimWay) :
      BaseOutcome s i .alloc

theorem merges_of_match (hcached : s.Cached) (hmat : s.mshrMatch.isSome)
    (hok : (s.mshrMergeable s.lookupMshrIndex && (!s.lookupCoherentWrite || !p.enableCoherence) &&
      (!s.probeNeeded i || (s.privateProbeNeeded i &&
        (s.mshr s.lookupMshrIndex).cohAction == .allocate &&
        s.probing s.lookupMshrIndex)))) : s.Merges i := by
  simp only [and_eq_true, or_eq_true, not_eq_true', beq_iff_eq] at hok
  refine ⟨hcached, getD_of_isSome hmat, hok.1.1, ?_, ?_⟩
  · intro hwr
    exact hok.1.2.resolve_left (by rw [hwr]; exact nofun)
  · intro hprobe
    obtain ⟨⟨h1, h2⟩, h3⟩ := hok.2.resolve_left (by rw [hprobe]; exact nofun)
    exact ⟨h1, h2, h3⟩

/-- A beat that no way holds is written around the cache, unless it is conditional, or it
takes a way. -/
theorem base_miss (hunowned : s.Unowned) (hway : s.hitWay = none) : BaseOutcome s i
      (if s.lookupIsWrite && !(p.enableCoherence && s.lookup.op == icxOpSc) &&
          s.mshrFree.isSome then .writeAround
      else if s.mshrFree.isSome && s.victim.isSome then .alloc
      else .none) := by
  by_cases haround : (s.lookupIsWrite && !(p.enableCoherence && s.lookup.op == icxOpSc) &&
      s.mshrFree.isSome)
  · rw [if_pos haround]
    simp only [and_eq_true, not_eq_true', ← not_eq_true] at haround
    refine .writeAround hunowned hway haround.1.1 ?_ (getD_of_isSome haround.2)
    exact fun hsc => haround.1.2 ⟨hsc.1, beq_iff_eq.mpr hsc.2⟩
  rw [if_neg haround]
  by_cases halloc : (s.mshrFree.isSome && s.victim.isSome)
  · rw [if_pos halloc]
    rw [and_eq_true] at halloc
    refine .alloc hunowned hway ?_ (getD_of_isSome halloc.1) (getD_of_isSome halloc.2)
    intro hwr
    rw [hwr, halloc.1, Bool.true_and, Bool.and_true, not_eq_true', ← not_eq_true,
      not_not, and_eq_true, beq_iff_eq] at haround
    exact haround
  · rw [if_neg halloc]
    exact .none

theorem base_outcome (h : s.Plain) : BaseOutcome s i (s.lookupBaseAction i) := by
  have hfen : (s.lookup.op == icxOpFence) = false := beq_eq_false_iff_ne.mpr h.fence
  simp only [lookupBaseAction, h.protocol, h.hart, h.invariant, h.sc, hfen, Bool.or_self, if_low]
  by_cases hcache : (!s.lookupCacheable)
  · rw [if_pos hcache]
    by_cases hfree : s.mshrFree.isSome
    · rw [if_pos hfree]
      exact .bypass (not_eq_true' _ ▸ hcache) (getD_of_isSome hfree)
    · rw [if_neg hfree]
      exact .none
  rw [if_neg hcache]
  rw [not_eq_true', Bool.not_eq_false] at hcache
  by_cases hmat : s.mshrMatch.isSome
  · rw [if_pos hmat]
    by_cases hok : (s.mshrMergeable s.lookupMshrIndex &&
        (!s.lookupCoherentWrite || !p.enableCoherence) &&
        (!s.probeNeeded i || (s.privateProbeNeeded i &&
          (s.mshr s.lookupMshrIndex).cohAction == .allocate && s.probing s.lookupMshrIndex)))
    · rw [if_pos hok]
      exact .merge (merges_of_match ⟨h, hcache⟩ hmat hok)
    · rw [if_neg hok]
      exact .none
  rw [if_neg hmat]
  rw [Option.not_isSome_iff_eq_none] at hmat
  by_cases hvic : s.dirtyVictim.isSome
  · rw [if_pos hvic]
    by_cases hrdy : (s.lookupIsRead && s.hitSlotReady i)
    · rw [if_pos hrdy]
      rw [and_eq_true] at hrdy
      exact .victimHit ⟨h, hcache⟩ hmat (getD_of_isSome hvic) hrdy.1 hrdy.2
    · rw [if_neg hrdy]
      exact .none
  rw [if_neg hvic]
  rw [Option.not_isSome_iff_eq_none] at hvic
  by_cases hway : s.hitWay.isSome
  · rw [if_pos hway]
    by_cases hgo : (s.hitSlotReady i && (!s.lookupIsWrite || !s.lookupSramWriteBlocked i))
    · rw [if_pos hgo]
      simp only [and_eq_true, or_eq_true, not_eq_true'] at hgo
      refine .hit ⟨⟨h, hcache⟩, hmat, hvic⟩ (getD_of_isSome hway) hgo.1 ?_
      exact fun hwr => hgo.2.resolve_left (by rw [hwr]; exact nofun)
    · rw [if_neg hgo]
      exact .none
  rw [if_neg hway]
  rw [Option.not_isSome_iff_eq_none] at hway
  exact base_miss ⟨⟨h, hcache⟩, hmat, hvic⟩ hway

theorem outcome_of_base {a : LookupAction} (h : s.lookupBaseAction i = a) (hnone : a ≠ .none)
    (himm : a ≠ .immediate) : s.Plain ∧ BaseOutcome s i a := by
  subst h
  have hplain := plain_of_base (i := i) ⟨hnone, himm⟩
  exact ⟨hplain, base_outcome hplain⟩

theorem base_bypass (h : s.lookupBaseAction i = .bypass) :
    s.Plain ∧ s.lookupCacheable = false ∧ s.mshrFree = some s.mshrFreeIndex := by
  obtain ⟨hplain, hout⟩ := outcome_of_base h (by simp) (by simp)
  cases hout with
  | bypass hcache hfree => exact ⟨hplain, hcache, hfree⟩

theorem base_merge (h : s.lookupBaseAction i = .merge) : s.Merges i := by
  obtain ⟨-, hout⟩ := outcome_of_base h (by simp) (by simp)
  cases hout with
  | merge hmerges => exact hmerges

theorem base_hit (h : s.lookupBaseAction i = .hit) :
    s.Unowned ∧ s.hitWay = some s.lookupHitWay ∧ s.hitSlotReady i ∧
      (s.lookupIsWrite → s.lookupSramWriteBlocked i = false) := by
  obtain ⟨-, hout⟩ := outcome_of_base h (by simp) (by simp)
  cases hout with
  | hit hunowned hway hrdy hwr => exact ⟨hunowned, hway, hrdy, hwr⟩

theorem base_writeAround (h : s.lookupBaseAction i = .writeAround) :
    s.Unowned ∧ s.hitWay = none ∧ s.lookupIsWrite ∧
      ¬ (p.enableCoherence ∧ s.lookup.op = icxOpSc) ∧ s.mshrFree = some s.mshrFreeIndex := by
  obtain ⟨-, hout⟩ := outcome_of_base h (by simp) (by simp)
  cases hout with
  | writeAround hunowned hway hwr hsc hfree => exact ⟨hunowned, hway, hwr, hsc, hfree⟩

theorem base_alloc (h : s.lookupBaseAction i = .alloc) :
    s.Unowned ∧ s.hitWay = none ∧ (s.lookupIsWrite → p.enableCoherence ∧ s.lookup.op = icxOpSc) ∧
      s.mshrFree = some s.mshrFreeIndex ∧ s.victim = some s.victimWay := by
  obtain ⟨-, hout⟩ := outcome_of_base h (by simp) (by simp)
  cases hout with
  | alloc hunowned hway hsc hfree hvic => exact ⟨hunowned, hway, hsc, hfree, hvic⟩

theorem immediate_of_ite {b : Bool} (h : (if b then immediate else .none) = .immediate) : b := by
  cases b with
  | false => cases h
  | true => rfl

theorem base_immediate (h : s.lookupBaseAction i = .immediate) : s.hitSlotReady i ∧
      (s.lookupProtocolErrorQ ∨ s.coherenceHartError ∨ s.lookupInvariantMatch ∨ s.lookupScFailed ∨
        (s.lookup.op = icxOpFence ∧ s.fenceDrainComplete)) := by
  by_cases hplain : s.Plain
  · have hout := base_outcome (i := i) hplain
    rw [h] at hout
    cases hout
  rw [lookupBaseAction] at h
  by_cases herr : (s.lookupProtocolErrorQ || s.coherenceHartError)
  · rw [if_pos herr] at h
    exact ⟨immediate_of_ite h, ((or_eq_true _ _).mp herr).imp_right .inl⟩
  rw [if_neg herr] at h
  by_cases hinv : s.lookupInvariantMatch
  · rw [if_pos hinv] at h
    exact ⟨immediate_of_ite h, .inr (.inr (.inl hinv))⟩
  rw [if_neg hinv] at h
  by_cases hsc : s.lookupScFailed
  · rw [if_pos hsc] at h
    exact ⟨immediate_of_ite h, .inr (.inr (.inr (.inl hsc)))⟩
  rw [if_neg hsc] at h
  by_cases hfen : (s.lookup.op == icxOpFence)
  · rw [if_pos hfen] at h
    have hdone := immediate_of_ite h
    rw [and_eq_true] at hdone
    exact ⟨hdone.2, .inr (.inr (.inr (.inr ⟨beq_iff_eq.mp hfen, hdone.1⟩)))⟩
  · rw [not_eq_true, Bool.or_eq_false_iff] at herr
    exact absurd ⟨herr.1, herr.2, eq_false_iff.mpr hinv, eq_false_iff.mpr hsc,
      fun h => hfen (beq_iff_eq.mpr h)⟩ hplain

/-! ## The action -/

theorem action_open (h : s.lookupAction i ≠ .none) : s.lookupOpen i := by
  by_contra hclosed
  rw [not_eq_true] at hclosed
  rw [lookupAction, hclosed] at h
  exact h rfl

/-- An action other than a probe is the base action. -/
theorem action_eq_base (h : s.lookupAction i ≠ .none) (hprobe : s.lookupAction i ≠ .cohProbe) :
    s.lookupBaseAction i = s.lookupAction i := by
  have hopen := action_open h
  simp only [lookupAction, hopen, Bool.not_true, if_low] at h hprobe ⊢
  split_ifs at h hprobe ⊢ with h1 h2 h3
  · rw [beq_iff_eq] at h2
    exact h2
  · exact absurd rfl hprobe
  · exact absurd rfl h
  · rfl

/-- A probe is needed, and the base action would hit, fill or write around. -/
theorem action_cohProbe (h : s.lookupAction i = .cohProbe) :
    s.probeNeeded i ∧ s.mshrFree = some s.mshrFreeIndex ∧
      (s.lookupBaseAction i = .hit ∨ s.lookupBaseAction i = .alloc ∨
        s.lookupBaseAction i = .writeAround) := by
  have hopen := action_open (s := s) (i := i) (by rw [h]; simp)
  have hbase : s.lookupBaseAction i ≠ .cohProbe := by
    intro hb
    obtain ⟨-, hout⟩ := outcome_of_base hb (by simp) (by simp)
    cases hout
  simp only [lookupAction, hopen, Bool.not_true, if_low] at h
  split_ifs at h with h1 h2 h3
  · rw [and_eq_true] at h1
    simp only [and_eq_true, or_eq_true, beq_iff_eq] at h3
    exact ⟨h1.1, getD_of_isSome h3.1, h3.2.elim (fun h => h.elim .inl fun h => .inr (.inl h))
      fun h => .inr (.inr h)⟩
  · exact absurd h hbase

theorem action_merge (h : s.lookupAction i = .merge) : s.Merges i :=
  base_merge ((action_eq_base (by rw [h]; simp) (by rw [h]; simp)).trans h)

theorem open_parts (h : s.lookupOpen i) :
    s.lookupValidQ ∧ s.lookupResultReady i ∧ s.probeCompletion = false ∧
      s.pendingFillSetLocked = false ∧ (s.coherenceSetLocked = false ∨ s.mshrMatch.isSome) := by
  simpa only [lookupOpen, and_eq_true, or_eq_true, not_eq_true', and_assoc] using h

theorem dispatch_iff : s.lookupDispatch i ↔ s.lookupAction i ≠ .none := by
  rw [lookupDispatch, bne_iff_ne]

theorem dispatch_open (h : s.lookupDispatch i) : s.lookupOpen i := action_open (dispatch_iff.mp h)

theorem dispatch_valid (h : s.lookupDispatch i) : s.lookupValidQ := (open_parts (dispatch_open h)).1

/-- The four actions that take a miss register, by their base actions. -/
theorem allocates_base (h : s.lookupAllocates i) : s.mshrFree = some s.mshrFreeIndex ∧
      (s.lookupBaseAction i = .hit ∨ s.lookupBaseAction i = .alloc ∨
        s.lookupBaseAction i = .bypass ∨ s.lookupBaseAction i = .writeAround) ∧
      (s.lookupBaseAction i = .hit → s.lookupAction i = .cohProbe) := by
  simp only [lookupAllocates, or_eq_true, beq_iff_eq] at h
  rcases h with ((h | h) | h) | h
  · have hbase := (action_eq_base (by rw [h]; simp) (by rw [h]; simp)).trans h
    exact ⟨(base_alloc hbase).2.2.2.1, .inr (.inl hbase), by rw [hbase]; simp⟩
  · have hbase := (action_eq_base (by rw [h]; simp) (by rw [h]; simp)).trans h
    exact ⟨(base_bypass hbase).2.2, .inr (.inr (.inl hbase)), by rw [hbase]; simp⟩
  · have hbase := (action_eq_base (by rw [h]; simp) (by rw [h]; simp)).trans h
    exact ⟨(base_writeAround hbase).2.2.2.2, .inr (.inr (.inr hbase)), by rw [hbase]; simp⟩
  · obtain ⟨-, hfree, hbase⟩ := action_cohProbe h
    exact ⟨hfree, hbase.elim .inl fun hb => .inr (hb.elim .inl fun hb => .inr (.inr hb)),
      fun _ => h⟩

theorem allocates_dispatch (h : s.lookupAllocates i) : s.lookupDispatch i := by
  rw [dispatch_iff]
  intro hnone
  rw [lookupAllocates, hnone] at h
  cases h

/-! ## The register each event names -/

theorem free_invalid (h : s.mshrFree = some k) : k < p.mshrEntries ∧ (s.mshr k).valid = false :=
  ⟨mem_range.mp (mem_of_find?_eq_some h), by simpa using find?_some h⟩

theorem allocates_iff : s.allocates i k ↔ s.lookupAllocates i ∧ k = s.mshrFreeIndex := by
  rw [allocates, and_eq_true, beq_iff_eq]

theorem allocates_free (h : s.allocates i k) : k < p.mshrEntries ∧ (s.mshr k).valid = false := by
  obtain ⟨halloc, rfl⟩ := allocates_iff.mp h
  exact free_invalid (allocates_base halloc).1

theorem merges_iff : s.merges i k ↔ s.lookupAction i = .merge ∧ k = s.lookupMshrIndex := by
  rw [merges, and_eq_true, beq_iff_eq, beq_iff_eq]

theorem match_some (h : s.mshrMatch = some k) :
    k < p.mshrEntries ∧ (s.mshr k).valid ∧ ((s.mshr k).bypass → (s.mshr k).busCacheable) ∧
      (s.mshr k).lineAddr = s.lookupLineAddr := by
  have hmat := find?_some h
  simp only [mshrMatches, and_eq_true, or_eq_true, not_eq_true', beq_iff_eq] at hmat
  refine ⟨mem_range.mp (mem_of_find?_eq_some h), hmat.1.1, ?_, hmat.2⟩
  intro hbyp
  rw [hbyp] at hmat
  exact hmat.1.2.resolve_left nofun

/-- A register that a beat merges into fills the line, and has room for one more. -/
structure MergeTarget (s : L2State p) (k : ℕ) : Prop where
  lt : k < p.mshrEntries
  valid : (s.mshr k).valid = true
  bypass : (s.mshr k).bypass = false
  line : (s.mshr k).lineAddr = s.lookupLineAddr
  clear : s.probing k = true → (s.mshr k).cohAction = .allocate
  replay : (s.mshr k).state ≠ .replay
  error : (s.mshr k).state ≠ .error
  room : (s.mshr k).waiterCount < p.waitersPerMshr

theorem Merges.target (h : s.Merges i) : s.MergeTarget s.lookupMshrIndex := by
  obtain ⟨hlt, hval, -, hline⟩ := match_some h.found
  have hok := h.mergeable
  simp only [mshrMergeable, and_eq_true, not_eq_true', bne_iff_ne,
    decide_eq_true_eq, Bool.and_eq_false_iff, beq_eq_false_iff_ne] at hok
  obtain ⟨⟨⟨⟨hbyp, hclr⟩, hrep⟩, herr⟩, hroom⟩ := hok
  refine ⟨hlt, hval, hbyp, hline, ?_, hrep, herr, hroom⟩
  intro hprobing
  have hne := hclr.resolve_left (by rw [hprobing]; exact nofun)
  cases haction : (s.mshr s.lookupMshrIndex).cohAction with
  | allocate => rfl
  | clear => exact absurd haction hne

theorem merges_target (h : s.merges i k) : s.MergeTarget k := by
  obtain ⟨hmerge, rfl⟩ := merges_iff.mp h
  exact (action_merge hmerge).target

theorem busWants_some {a : BusAction} (h : s.busWants k = some a) :
    (s.mshr k).valid ∧ (s.mshr k).state = a.need := by
  rw [busWants] at h
  split_ifs at h with hval
  refine ⟨hval, ?_⟩
  cases hst : (s.mshr k).state <;> rw [hst] at h <;> cases h <;> rfl

theorem busRequest_wants (h : s.busRequestFire i) :
    s.busCandidateMshr ∈ (range p.mshrEntries).map (rotate p.mshrEntries s.busRoundRobinQ) ∧
      s.busWants s.busCandidateMshr = some s.busCandidateAction := by
  rw [busRequestFire, busReqValidO, and_eq_true, and_eq_true] at h
  have hsome : s.busCandidate = some s.busCandidateMshr := getD_of_isSome h.1.1
  refine ⟨mem_of_find?_eq_some hsome, ?_⟩
  have hwants := find?_some hsome
  rw [busCandidateAction]
  cases hw : s.busWants s.busCandidateMshr with
  | none => simp [hw] at hwants
  | some a => rfl

theorem replay_wants (h : s.replayEnqueue i) :
    s.replayMshr ∈ (range p.mshrEntries).map (rotate p.mshrEntries s.replayRoundRobinQ) ∧
      (s.mshr s.replayMshr).valid ∧
      ((s.mshr s.replayMshr).state = .replay ∨ (s.mshr s.replayMshr).state = .error) ∧
      s.hitValidQ = false ∧ s.responseSpace i := by
  rw [replayEnqueue, and_eq_true, and_eq_true, and_eq_true, not_eq_true'] at h
  have hsome : s.replayCandidate = some s.replayMshr := getD_of_isSome h.1.1.1
  have hwants := find?_some hsome
  rw [replayWants, and_eq_true, or_eq_true, beq_iff_eq, beq_iff_eq] at hwants
  exact ⟨mem_of_find?_eq_some hsome, hwants.1, hwants.2, h.1.2, h.1.1.2⟩

theorem probeStart_candidate (h : s.probeStartFire) :
    s.probeCandidateMshr < p.mshrEntries ∧ (s.mshr s.probeCandidateMshr).valid ∧
      (s.mshr s.probeCandidateMshr).state = .needProbe ∧ p.enableCoherence ∧
      s.tracker.startReadyO := by
  rw [probeStartFire, and_eq_true, and_eq_true] at h
  have hsome : s.probeCandidate = some s.probeCandidateMshr := getD_of_isSome h.1
  have hfnd := find?_some hsome
  rw [and_eq_true, beq_iff_eq] at hfnd
  exact ⟨mem_range.mp (mem_of_find?_eq_some hsome), hfnd.1, hfnd.2, h.2.1, h.2.2⟩

theorem cacheWrite_replay (h : s.replayCacheWrite i) : s.replayEnqueue i ∧ s.replayError = false ∧
      (s.mshr s.replayMshr).bypass = false ∧ p.isWrite s.replayBeat.op := by
  rw [replayCacheWrite, replayIsWrite, and_eq_true, and_eq_true, and_eq_true,
    not_eq_true', not_eq_true'] at h
  exact ⟨h.1, h.2.1.1, h.2.1.2, h.2.2⟩

end L2State

end OpenRV64
