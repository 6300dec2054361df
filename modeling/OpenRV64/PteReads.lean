/-
Page-table reads through the native L2 after page-table fences: what a run promises of the
copies they are answered from.
-/
import OpenRV64.PteFreshness

namespace OpenRV64

open Sync L2State

namespace PteHistory

variable {p : L2Params} {h : PteHistory} {s : L2State p} {i : L2Input p}

theorem agrees_run {past : Past (L2State p) (L2Input p)}
    (hrun : Run (l2Native p) anyEnv past s) : (of past).Agrees s := by
  induction hrun with
  | reset hreset => exact Agrees.of_reset hreset
  | cycle i _ _ ih => exact ih.step

/-- Two dates that show the same generation are the same, unless the generation has come
round between them. -/
theorem advance_eq_of_generation {a b : ℕ} (hle : a ≤ b) (hwrap : b < a + 2 ^ p.pteGenerationBits)
    (hsame : BitVec.ofNat p.pteGenerationBits a = BitVec.ofNat p.pteGenerationBits b) : a = b := by
  have hmod : a % 2 ^ p.pteGenerationBits = b % 2 ^ p.pteGenerationBits := by
    simpa only [BitVec.toNat_ofNat] using congrArg BitVec.toNat hsame
  have hdvd := Nat.dvd_of_mod_eq_zero (Nat.sub_mod_eq_zero_of_mod_eq hmod.symm)
  have hz := Nat.eq_zero_of_dvd_of_lt hdvd (by omega)
  omega

/-- A page-table read of a line. -/
def pteRead (b : L2Beat) : Bool := b.kind == icxKindPte && b.op == icxOpRead

/-- The copy that answers `b` was fetched after the fences before `b`, and `data` is its
contents. -/
structure Answers (h : PteHistory) (c : LineCopy) (b : L2Beat) (data : LineData) : Prop where
  fetched : h.acceptFences b.label ≤ c.fetched
  contents : data = c.payload.data.read b.size b.addr

/-- What a cycle keeps of page-table fences: a page-table read that hits is answered from a
copy fetched after them unless the generation has come round since, one that waits for a line
is answered from the copy that its register fetched, or took over on its behalf, and a dirty
line leaves its way through a writeback before the fill. -/
structure FreshReads (h : PteHistory) (s : L2State p) (i : L2Input p) : Prop where
  hit : s.lookupAction i = .hit → pteRead s.lookup = true →
    h.advances < (h.way s.lookupSet s.lookupHitWay).advance + 2 ^ p.pteGenerationBits →
      h.Answers (h.way s.lookupSet s.lookupHitWay) s.lookup (s.lookupAnswerData i)
  replay : s.replayEnqueue i = true → s.replayError = false →
    (s.mshr s.replayMshr).bypass = false → pteRead s.replayBeat = true →
    h.resident s.replayMshr = false ∨ (s.replayIndex = 0 ∧
      h.advances < (h.held s.replayMshr).advance + 2 ^ p.pteGenerationBits) →
        h.Answers (h.held s.replayMshr) s.replayBeat s.replayData
  fill : s.busRequestFire i = true → s.busCandidateAction = .fill →
    h.evicted s.busCandidateMshr ≠ none → h.writtenBack s.busCandidateMshr = true
  writeback : ∀ a d, s.busRequestFire i = true → s.busCandidateAction = .wb →
    h.evicted s.busCandidateMshr = some (a, d) →
      s.busReqO.addr = a ∧ s.busReqO.wdata = d.data ∧ s.busReqO.wstrb = d.strb

section Reads

variable (hagr : h.Agrees s)

include hagr

theorem Agrees.hit_fresh (haction : s.lookupAction i = .hit) (hread : pteRead s.lookup)
    (hwrap : h.advances < (h.way s.lookupSet s.lookupHitWay).advance + 2 ^ p.pteGenerationBits) :
    h.Answers (h.way s.lookupSet s.lookupHitWay) s.lookup (s.lookupAnswerData i) := by
  have hval : s.lookupValidQ := dispatch_valid (dispatch_iff.mpr (by rw [haction]; simp))
  have hbase := (action_eq_base (by rw [haction]; simp) (by rw [haction]; simp)).trans haction
  obtain ⟨hmat, hstale⟩ := hitWay_spec (base_hit hbase).2.1
  have hway := (matches_unreserved hmat).1
  obtain ⟨hdata, hgeneration⟩ := hagr.shows hval hway
  have hdated := (hagr.resident _ _ hway).dated
  rw [pteRead, Bool.and_eq_true, beq_iff_eq, beq_iff_eq] at hread
  have hpte : s.lookupIsPte := beq_iff_eq.mpr hread.1
  have hisRead : s.lookupIsRead := by
    rw [lookupIsRead, L2Params.isRead, hread.2]
    rfl
  rw [wayStale, hpte, Bool.true_and, bne_eq_false_iff_eq, hgeneration, hagr.generation] at hstale
  refine ⟨?_, ?_⟩
  · have hsame := advance_eq_of_generation hdated.le hwrap hstale
    exact (hagr.accepted _).trans (hdated.fresh hsame)
  · rw [lookupAnswerData, haction, hisRead, ← hdata]
    rfl

theorem Agrees.replay_fresh (henqueue : s.replayEnqueue i)
    (herr : s.replayError = false) (hbyp : (s.mshr s.replayMshr).bypass = false)
    (hread : pteRead s.replayBeat)
    (hfetched : h.resident s.replayMshr = false ∨ (s.replayIndex = 0 ∧
      h.advances < (h.held s.replayMshr).advance + 2 ^ p.pteGenerationBits)) :
    h.Answers (h.held s.replayMshr) s.replayBeat s.replayData := by
  obtain ⟨-, hval, hst, -⟩ := replay_wants henqueue
  have hrep : (s.mshr s.replayMshr).state = .replay := by
    refine hst.resolve_right fun hs => ?_
    rw [replayError, hs] at herr
    cases herr
  have hreg := hagr.register _ hval hbyp
  rw [pteRead, Bool.and_eq_true, beq_iff_eq, beq_iff_eq] at hread
  refine ⟨(hagr.accepted _).trans ?_, ?_⟩
  · refine hreg.fresh (.inr (.inr hrep)) ?_
    rcases hfetched with hres | ⟨hfst, hwrap⟩
    · exact (hreg.fill hres).1
    cases hres : h.resident s.replayMshr
    · exact (hreg.fill hres).1
    have hkind : (s.waiter s.replayMshr 0).kind = icxKindPte := by
      rw [← hfst]
      exact hread.1
    exact advance_eq_of_generation hreg.advance (hreg.taken.trans_lt hwrap) (hreg.first hres hkind)
  · have hisRead : p.isRead s.replayBeat.op := by
      rw [L2Params.isRead, hread.2]
      rfl
    rw [replayData, herr, hisRead, hbyp, ← hreg.payload (.inr hrep)]
    rfl

theorem Agrees.writtenBack_of_fill (hfire : s.busRequestFire i)
    (haction : s.busCandidateAction = .fill) (hevicted : h.evicted s.busCandidateMshr ≠ none) :
    h.writtenBack s.busCandidateMshr := by
  obtain ⟨hval, hst⟩ := requestsAt_state (request_at hfire)
  rw [haction] at hst
  have hbyp : (s.mshr s.busCandidateMshr).bypass = false := by
    rw [Bool.eq_false_iff]
    intro hb
    exact ((hagr.shape.mshr _).bypass hval hb).2.2.2.1 hst
  rcases (hagr.register _ hval hbyp).returned hevicted with
    hdone | hs | hs | hs | ⟨hs | hs, -⟩
  · exact hdone
  all_goals
    rw [hst] at hs
    cases hs

theorem Agrees.request_of_writeback {a : BitVec 64} {d : SramPayload}
    (hfire : s.busRequestFire i) (haction : s.busCandidateAction = .wb)
    (hevicted : h.evicted s.busCandidateMshr = some (a, d)) :
    s.busReqO.addr = a ∧ s.busReqO.wdata = d.data ∧ s.busReqO.wstrb = d.strb := by
  obtain ⟨hval, hst⟩ := requestsAt_state (request_at hfire)
  rw [haction] at hst
  have hbyp : (s.mshr s.busCandidateMshr).bypass = false := by
    rw [Bool.eq_false_iff]
    intro hb
    exact ((hagr.shape.mshr _).bypass hval hb).2.1 hst
  rw [busReqO, haction]
  exact (hagr.register _ hval hbyp).victim a d hevicted

end Reads

/-- In every cycle of every run the page-table reads that the generation governs are fresh. -/
theorem pte_reads_fresh {past : Past (L2State p) (L2Input p)}
    (hrun : Run (l2Native p) anyEnv past s) (i : L2Input p) : (of past).FreshReads s i where
  hit := (agrees_run hrun).hit_fresh
  replay := (agrees_run hrun).replay_fresh
  fill := (agrees_run hrun).writtenBack_of_fill
  writeback _ _ := (agrees_run hrun).request_of_writeback

/-! ## A generation of one bit comes round after two fences -/

section Wrap

theorem oneWay_pos : 1 ≤ 1 := by decide

theorem oneWay_pow : 1 &&& (1 - 1) = 0 := by decide

/-- One way of 4096 lines, and a generation of one bit. -/
def oneBitL2 : L2Params where
  addrWidth := 32
  cacheBytes := 256 * 1024
  ways := 1
  mshrEntries := 2
  waitersPerMshr := 1
  commandEntries := 4
  responseEntries := 2
  busTrackEntries := 2
  pteGenerationBits := 1
  invariantBase := 0x7f000000
  enableCoherence := false
  hartIdBase := 0
  directory := CoherentState.oneWayParams.toSnoopFilterParams
  addr_ok := by decide
  cache_ok := by decide
  cache_pow := by decide
  ways_pos := oneWay_pos
  ways_pow := oneWay_pow
  mshr_ok := by decide
  waiters_ok := by decide
  command_ok := by decide
  response_ok := by decide
  pte_ok := by decide
  track_ok := by decide
  sets_pos := by decide
  base_ok := by decide

def noCommand : L2Command := ⟨0, 0, 0, 0, false, 0, 0, 0, 0, 0, 0, 0⟩

def noBeat : L2Beat := ⟨0, 0, 0, 0, false, 0, 0, 0, 0, 0, 0, false, .zero, .none, 0⟩

def emptyMshr (p : L2Params) : Mshr p where
  valid := false
  bypass := false
  state := .idle
  lineAddr := 0
  set := 0
  tag := 0
  way := 0
  pteGeneration := 0
  victimAddr := 0
  victimData := .zero
  victimStrb := .none
  replayData := .zero
  replayStrb := .none
  waiterCount := 0
  replay := 0
  bypassData := .zero
  busCacheable := false
  error := false
  privateFill := false
  cohAction := .allocate
  postProbeState := .idle
  directoryEntry := 0
  probeTarget _ := false
  probeCacheMask := 0
  probeLineAddr := 0
  directoryAddI _ := false
  directoryAddD _ := false
  directoryClearD _ := false

/-- A state that reset leaves behind. -/
def powerUp (p : L2Params) : L2State p where
  way _ := ⟨fun _ => ⟨.zero, .none⟩, fun _ => ⟨0, 0⟩, ⟨.zero, .none⟩, ⟨0, 0⟩, false, false,
    ⟨.zero, .none⟩, ⟨0, 0⟩⟩
  wayMeta _ _ := ⟨false, false, false⟩
  replaceQ _ := 0
  pteGenerationQ := 0
  cmd _ := ⟨noCommand, false, false, .zero, .none, false⟩
  cmdHeadQ := 0
  cmdTailQ := 0
  cmdCountQ := 0
  cmdBeatQ := 0
  lookupValidQ := false
  lookup := noBeat
  lookupProtocolErrorQ := false
  hitValidQ := false
  hit := ⟨0, 0, 0, 0, false, 0, false, 0, .zero, false, false, false, 0⟩
  mshr _ := emptyMshr p
  waiter _ _ := noBeat
  response _ := ⟨⟨0, 0, 0, 0, false, .zero, false, false, 0⟩, false, 0⟩
  responseHeadQ := 0
  responseTailQ := 0
  responseCountQ := 0
  track _ := (0, .fill)
  trackHeadQ := 0
  trackTailQ := 0
  trackCountQ := 0
  busRoundRobinQ := 0
  replayRoundRobinQ := 0
  lockActiveQ := false
  lockHartIdQ := 0
  lockLineAddrQ := 0
  protocolErrorQ := false
  lookupCohResponseSeenQ := false
  activeProbeMshrQ := 0
  nextProbeIdQ := 0
  reservationValidQ _ := false
  reservationLineQ _ := 0
  tracker := .reset p.numHarts
  randomStateQ := 0x4f50454e52563634
  acceptedQ := 0

theorem powerUp_reset (p : L2Params) : (powerUp p).Reset where
  ways _ _ := rfl
  replace _ := rfl
  generation := rfl
  cmd _ := ⟨rfl, rfl, rfl⟩
  cmdQueue := ⟨rfl, rfl, rfl, rfl⟩
  lookup := rfl
  hit := ⟨rfl, rfl, rfl⟩
  mshr _ := ⟨rfl, rfl, rfl, ⟨rfl, rfl⟩, rfl, ⟨rfl, rfl, rfl⟩, ⟨rfl, rfl⟩,
    ⟨rfl, rfl, rfl, rfl, rfl, rfl⟩, ⟨rfl, rfl, rfl⟩⟩
  response _ := ⟨rfl, rfl⟩
  responseQueue := ⟨rfl, rfl, rfl⟩
  track := ⟨rfl, rfl, rfl⟩
  roundRobin := ⟨rfl, rfl⟩
  lock := ⟨rfl, rfl, rfl⟩
  protocolError := rfl
  seen := rfl
  probe := ⟨rfl, rfl⟩
  reservation _ := ⟨rfl, rfl⟩
  tracker := rfl
  random := rfl
  accepted := rfl

/-- A cycle without a command, on a bus and a response channel that are always ready. -/
def quietCycle (p : L2Params) : L2Input p where
  reqValidI := false
  reqI := noCommand
  wdataValidI := false
  wdataHartIdI := 0
  wdataTxnIdI := 0
  wdataSourceIdI := 0
  wdataBeatIndexI := 0
  wdataLastI := false
  wdataI := .zero
  wstrbI := .none
  respReadyI := true
  probeReadyI _ := false
  probeRespValidI _ := false
  probeRespIdI _ := 0
  probeRespKindI _ := 0
  probeRespErrorI _ := false
  protocolErrorClearI := false
  busReqReadyI := true
  busRespValidI := true
  busRespRdataI := .zero
  busRespErrorI := false
  directory := .tied p

/-- A cycle in which the walker sends a command. -/
def walkerCycle (p : L2Params) (op : BitVec 4) : L2Input p :=
  { quietCycle p with
    reqValidI := true
    reqI := ⟨0, 0, icxSourcePtw, op, false, 0, icxKindPte, icxAttrCacheable, 3, 0x1000, 0, 0⟩ }

/-- The walker reads a line, sends two fences, and once they are answered reads it again. -/
def wrapInputs : List (L2Input oneBitL2) :=
  [walkerCycle _ icxOpRead, walkerCycle _ icxOpFence, walkerCycle _ icxOpFence] ++
    List.replicate 10 (quietCycle _) ++ [walkerCycle _ icxOpRead, quietCycle _]

def wrapRun : Past (L2State oneBitL2) (L2Input oneBitL2) × L2State oneBitL2 :=
  exec (l2Native oneBitL2) [] (powerUp oneBitL2) wrapInputs

theorem wrapRun_run : Run (l2Native oneBitL2) anyEnv wrapRun.1 wrapRun.2 :=
  exec_run wrapInputs (.reset (powerUp_reset oneBitL2))

/-- In that run the second read hits the copy that was fetched before both fences. -/
theorem wrapped_read_stale :
    ¬ ∀ (p : L2Params) (past : Past (L2State p) (L2Input p)) (s : L2State p),
      Run (l2Native p) anyEnv past s → ∀ i, s.lookupAction i = .hit → pteRead s.lookup = true →
        (of past).acceptFences s.lookup.label ≤
          ((of past).way s.lookupSet s.lookupHitWay).fetched := by
  intro hfresh
  have hle := hfresh _ _ _ wrapRun_run (quietCycle _) (by decide +kernel) (by decide +kernel)
  have hgt : ((of wrapRun.1).way wrapRun.2.lookupSet wrapRun.2.lookupHitWay).fetched <
      (of wrapRun.1).acceptFences wrapRun.2.lookup.label := by decide +kernel
  exact absurd hle (Nat.not_le.mpr hgt)

theorem pte_reads_fresh_wrapRun : (of wrapRun.1).FreshReads wrapRun.2 (quietCycle oneBitL2) :=
  pte_reads_fresh wrapRun_run (quietCycle oneBitL2)

end Wrap

end PteHistory

end OpenRV64
