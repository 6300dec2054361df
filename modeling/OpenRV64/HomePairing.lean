/-
The transcript of the coherence home's channels: every run is a sequence of complete
visits, each one command with its data beat, its L2 request and its response, and at
most one visit in progress.
-/
import OpenRV64.CoherentProtocol

namespace OpenRV64

open Sync CoherentState

/-! ## Visits -/

/-- The identity that a command hands to everything done for it. -/
structure HomeIds where
  hartId : BitVec 4
  txnId : BitVec 4
  sourceId : BitVec 2
deriving DecidableEq

/-- An accepted command; `malformed` is `request_protocol_error`. -/
structure HomeCommand where
  ids : HomeIds
  op : BitVec 4
  malformed : Bool

/-- A consumed write-data beat. -/
structure HomeBeat where
  ids : HomeIds
  beatIndex : BitVec 8
  last : Bool

/-- A response as its requester sees it. -/
structure HomeResponse where
  ids : HomeIds
  error : Bool
  scSuccess : Bool

inductive HomeEvent
  | command (c : HomeCommand)
  | beat (b : HomeBeat)
  | forward (ids : HomeIds)
  | response (r : HomeResponse)

/-- The data beats that a command brings. -/
def HomeCommand.due (c : HomeCommand) : Nat :=
  if c.op = icxOpWrite ∨ c.op = icxOpSc then 1 else 0

/-- The beat is the one that the command announced. -/
structure HomeBeat.Fits (b : HomeBeat) (c : HomeCommand) : Prop where
  ids : b.ids = c.ids
  index : b.beatIndex = 0
  last : b.last = true

/-- A visit from its command on: the beats consumed and the L2 requests issued. -/
structure HomeOpen where
  command : HomeCommand
  beats : List HomeBeat
  forwards : List HomeIds

/-- A visit together with its response. -/
structure HomeVisit extends HomeOpen where
  response : HomeResponse

namespace HomeOpen

def events (o : HomeOpen) : List HomeEvent :=
  .command o.command :: (o.beats.map .beat ++ o.forwards.map .forward)

/-- The command and its data keep the protocol. -/
def Clean (o : HomeOpen) : Prop := o.command.malformed = false ∧ ∀ b ∈ o.beats, b.Fits o.command

/-- The visit has taken no more than its own beat, and has asked L2 once at most,
after a command and a beat without a protocol error. -/
structure Begun (o : HomeOpen) : Prop where
  beats : o.beats.length ≤ o.command.due
  forwards : o.forwards = [] ∨ o.forwards = [o.command.ids] ∧ o.Clean ∧
    o.beats.length = o.command.due

end HomeOpen

namespace HomeVisit

def events (v : HomeVisit) : List HomeEvent := v.toHomeOpen.events ++ [.response v.response]

/-- A store-conditional that was answered without success. -/
def FailedSc (v : HomeVisit) : Prop := v.command.op = icxOpSc ∧ v.response.scSuccess = false

/-- The response is the command's own, its data beat was consumed, and L2 was asked
once, or not at all where the command is refused. -/
structure Proper (v : HomeVisit) : Prop where
  ids : v.response.ids = v.command.ids
  beats : v.beats.length = v.command.due
  forwards : v.forwards = [] ∨ v.forwards = [v.command.ids]
  refused : ¬ v.Clean → v.response.error = true ∧ v.forwards = []
  failed : v.FailedSc → v.forwards = []
  forwarded : v.Clean → ¬ v.FailedSc → v.forwards = [v.command.ids]

end HomeVisit

namespace CoherentState

variable {p : CoherentParams}

/-! ## The channels of one cycle -/

def commandOf (i : CoherentInput p) : HomeCommand :=
  ⟨⟨i.reqHartIdI, i.reqTxnIdI, i.reqSourceIdI⟩, i.reqOpI, requestProtocolError p i⟩

def beatOf (i : CoherentInput p) : HomeBeat :=
  ⟨⟨i.wdataHartIdI, i.wdataTxnIdI, i.wdataSourceIdI⟩, i.wdataBeatIndexI, i.wdataLastI⟩

/-- The identity on the response port and on the L2 ports. -/
def requestIds (s : CoherentState p) : HomeIds := ⟨s.reqHartIdQ, s.reqTxnIdQ, s.reqSourceIdQ⟩

def responseOf (s : CoherentState p) : HomeResponse :=
  ⟨s.requestIds, s.respErrorQ, s.respScSuccessQ⟩

/-- The handshakes of a cycle. -/
def cycleEvents (s : CoherentState p) (i : CoherentInput p) : List HomeEvent :=
  (if s.requestFire i then [.command (commandOf i)] else []) ++
    ((if s.wdataFire i then [.beat (beatOf i)] else []) ++
      ((if s.l2RequestFire i then [.forward s.requestIds] else []) ++
        (if s.responseFire i then [.response s.responseOf] else [])))

/-- The handshakes of a run, the first one first. -/
def events : Past (CoherentState p) (CoherentInput p) → List HomeEvent
  | [] => []
  | (s, i) :: past => events past ++ s.cycleEvents i

/-- The run consists of proper visits and of the one in progress, if there is one. -/
def Paired (past : Past (CoherentState p) (CoherentInput p)) (s : CoherentState p) : Prop :=
  ∃ visits : List HomeVisit, (∀ v ∈ visits, v.Proper) ∧
    ((s.stateQ = .idle ∧ events past = visits.flatMap HomeVisit.events) ∨
      (s.stateQ ≠ .idle ∧ ∃ o : HomeOpen, o.Begun ∧ s.requestIds = o.command.ids ∧
        events past = visits.flatMap HomeVisit.events ++ o.events))

section Cycle

variable {s : CoherentState p} {i : CoherentInput p}

theorem cycleEvents_idle (hst : s.stateQ = .idle) : s.cycleEvents i =
    if s.requestFire i then [.command (commandOf i)] else [] := by
  simp [cycleEvents, wdataFire, wdataReadyO, l2RequestFire, l2ReqValidO, responseFire,
    respValidO, hst]

theorem cycleEvents_waitWdata (hst : s.stateQ = .waitWdata) : s.cycleEvents i =
    if s.wdataFire i then [.beat (beatOf i)] else [] := by
  simp [cycleEvents, requestFire, reqReadyO, l2RequestFire, l2ReqValidO, responseFire,
    respValidO, hst]

theorem cycleEvents_l2Req (hst : s.stateQ = .l2Req) : s.cycleEvents i =
    if s.l2RequestFire i then [.forward s.requestIds] else [] := by
  simp [cycleEvents, requestFire, reqReadyO, wdataFire, wdataReadyO, responseFire, respValidO, hst]

theorem cycleEvents_resp (hst : s.stateQ = .resp) : s.cycleEvents i =
    if s.responseFire i then [.response s.responseOf] else [] := by
  simp [cycleEvents, requestFire, reqReadyO, wdataFire, wdataReadyO, l2RequestFire,
    l2ReqValidO, hst]

/-- No other state opens a channel of the transcript. -/
theorem cycleEvents_quiet (hidle : s.stateQ ≠ .idle) (hwait : s.stateQ ≠ .waitWdata)
    (hl2 : s.stateQ ≠ .l2Req) (hrsp : s.stateQ ≠ .resp) : s.cycleEvents i = [] := by
  simp [cycleEvents, requestFire, reqReadyO, wdataFire, wdataReadyO, l2RequestFire,
    l2ReqValidO, responseFire, respValidO, hidle, hwait, hl2, hrsp]

/-- The registers that a visit keeps from its command to its response. -/
structure SameCommand (s s' : CoherentState p) : Prop where
  ids : s'.requestIds = s.requestIds
  op : s'.reqOpQ = s.reqOpQ
  malformed : s'.commandErrorQ = s.commandErrorQ

theorem sameCommand_directory : SameCommand s (s.directoryResponse i) := by
  simp only [directoryResponse]
  repeat' split
  all_goals exact ⟨rfl, rfl, rfl⟩

theorem sameCommand_step (hst : s.stateQ ≠ .idle) : SameCommand s (s.step i) := by
  have hhome : SameCommand s (s.home i) := by
    rw [home]
    split
    case h_1 h => exact absurd h hst
    all_goals repeat' split
    all_goals first
      | exact sameCommand_directory
      | exact ⟨rfl, rfl, rfl⟩
  exact ⟨hhome.ids, hhome.op, hhome.malformed⟩

end Cycle

end CoherentState

/-! ## A visit in progress -/

namespace HomeOpen

variable {p : CoherentParams}

/-- The command and its beat were taken, and both keep the protocol. -/
structure Ready (o : HomeOpen) : Prop where
  clean : o.Clean
  beats : o.beats.length = o.command.due

/-- A store-conditional goes on only as a successful one. -/
def ScHeld (o : HomeOpen) (s : CoherentState p) : Prop :=
  o.command.op = icxOpSc → s.respScSuccessQ = true

/-- How a visit comes to its response: refused, failed, or through L2. -/
inductive Concluded (o : HomeOpen) (s : CoherentState p) : Prop
  | refused : ¬ o.Clean → s.respErrorQ = true → o.forwards = [] → Concluded o s
  | failed : o.Clean → o.command.op = icxOpSc → s.respScSuccessQ = false →
      o.forwards = [] → Concluded o s
  | served : o.Clean → o.ScHeld s → o.forwards = [o.command.ids] → Concluded o s

/-- What has happened to the visit in each state of the home. -/
def Phase (o : HomeOpen) (s : CoherentState p) : Prop :=
  match s.stateQ with
  | .idle => False
  | .waitWdata => o.command.due = 1 ∧ o.beats = [] ∧ o.forwards = []
  | .dirLookup | .dirWait => o.Ready ∧ o.forwards = []
  | .evictProbeStart | .evictProbeWait | .dirAllocate | .writeProbeStart
  | .writeProbeWait | .dirClear | .l2Req => o.Ready ∧ o.forwards = [] ∧ o.ScHeld s
  | .l2Wdata | .l2Resp | .dirRecord =>
    o.Ready ∧ o.forwards = [o.command.ids] ∧ o.ScHeld s
  | .resp => o.beats.length = o.command.due ∧ o.Concluded s

/-- The home works on the visit. -/
structure At (o : HomeOpen) (s : CoherentState p) : Prop where
  ids : s.requestIds = o.command.ids
  op : s.reqOpQ = o.command.op
  malformed : s.commandErrorQ = o.command.malformed
  phase : o.Phase s

section

variable {o : HomeOpen} {s s' : CoherentState p}

theorem Ready.begun (h : o.Ready) (hforwards : o.forwards = [] ∨ o.forwards = [o.command.ids]) :
    o.Begun where
  beats := h.beats.le
  forwards := hforwards.imp_right fun hone => ⟨hone, h.clean, h.beats⟩

theorem Concluded.begun (h : o.Concluded s) (hbeats : o.beats.length = o.command.due) :
    o.Begun := by
  refine ⟨hbeats.le, ?_⟩
  cases h with
  | refused _ _ hnone => exact .inl hnone
  | failed _ _ _ hnone => exact .inl hnone
  | served hclean _ hone => exact .inr ⟨hone, hclean, hbeats⟩

theorem Phase.begun (h : o.Phase s) : s.stateQ ≠ .idle ∧ o.Begun := by
  unfold Phase at h
  cases hst : s.stateQ with
  | idle =>
    rw [hst] at h
    exact h.elim
  | waitWdata =>
    rw [hst] at h
    refine ⟨by decide, ?_, .inl h.2.2⟩
    rw [h.2.1]
    exact Nat.zero_le _
  | resp =>
    rw [hst] at h
    exact ⟨by decide, h.2.begun h.1⟩
  | dirLookup | dirWait =>
    rw [hst] at h
    exact ⟨by decide, h.1.begun (.inl h.2)⟩
  | evictProbeStart | evictProbeWait | dirAllocate | writeProbeStart | writeProbeWait
  | dirClear | l2Req =>
    rw [hst] at h
    exact ⟨by decide, h.1.begun (.inl h.2.1)⟩
  | l2Wdata | l2Resp | dirRecord =>
    rw [hst] at h
    exact ⟨by decide, h.1.begun (.inr h.2.1)⟩

theorem Concluded.transfer (h : o.Concluded s) (herr : s'.respErrorQ = s.respErrorQ)
    (hsc : s'.respScSuccessQ = s.respScSuccessQ) : o.Concluded s' := by
  cases h with
  | refused href hans hnone => exact .refused href (herr.trans hans) hnone
  | failed hclean hop hans hnone => exact .failed hclean hop (hsc.trans hans) hnone
  | served hclean hheld hone => exact .served hclean (fun hop => hsc.trans (hheld hop)) hone

/-- Nothing else of the home is part of the phase. -/
theorem Phase.transfer (h : o.Phase s) (hst : s'.stateQ = s.stateQ)
    (herr : s'.respErrorQ = s.respErrorQ) (hsc : s'.respScSuccessQ = s.respScSuccessQ) :
    o.Phase s' := by
  have hheld : o.ScHeld s → o.ScHeld s' := fun hheld hop => hsc.trans (hheld hop)
  rw [Phase, hst]
  rw [Phase] at h
  cases hs : s.stateQ <;> rw [hs] at h
  case resp => exact ⟨h.1, h.2.transfer herr hsc⟩
  all_goals first
    | exact h
    | exact ⟨h.1, h.2.1, hheld h.2.2⟩

/-- A concluded visit and the response that the port shows for it. -/
theorem Concluded.proper (h : o.Concluded s) (hids : s.requestIds = o.command.ids)
    (hbeats : o.beats.length = o.command.due) : (HomeVisit.mk o s.responseOf).Proper := by
  cases h with
  | refused href herr hnone =>
    exact ⟨hids, hbeats, .inl hnone, fun _ => ⟨herr, hnone⟩, fun _ => hnone,
      fun hclean => absurd hclean href⟩
  | failed hclean hop hsc hnone =>
    exact ⟨hids, hbeats, .inl hnone, fun href => absurd hclean href,
      fun _ => hnone, fun _ hsuccess => absurd ⟨hop, hsc⟩ hsuccess⟩
  | served hclean hheld hone =>
    refine ⟨hids, hbeats, .inr hone, fun href => absurd hclean href, ?_, fun _ _ => hone⟩
    rintro ⟨hop, hsc⟩
    rw [responseOf, hheld hop] at hsc
    cases hsc

theorem events_forward (hnone : o.forwards = []) (ids : HomeIds) :
    ({ o with forwards := [ids] } : HomeOpen).events = o.events ++ [.forward ids] := by
  simp [events, hnone]

theorem events_beat (hbeats : o.beats = []) (hnone : o.forwards = []) (b : HomeBeat) :
    ({ o with beats := [b] } : HomeOpen).events = o.events ++ [.beat b] := by
  simp [events, hbeats, hnone]

end

/-! ## One cycle of a visit -/

/-- The next cycle works on the same visit, to which the events of this one belong. -/
def Advances (o : HomeOpen) (s : CoherentState p) (i : CoherentInput p) : Prop :=
  ∃ o' : HomeOpen, o'.At (s.step i) ∧ o'.events = o.events ++ s.cycleEvents i

section Step

variable {o : HomeOpen} {s : CoherentState p} {i : CoherentInput p}

theorem At.notIdle (h : o.At s) : s.stateQ ≠ .idle := h.phase.begun.1

theorem At.quiet (h : o.At s) (hquiet : s.cycleEvents i = [])
    (hph : o.Phase (s.step i)) : o.Advances s i := by
  have hsame := sameCommand_step (i := i) h.notIdle
  refine ⟨o, ⟨hsame.ids.trans h.ids, hsame.op.trans h.op,
    hsame.malformed.trans h.malformed, hph⟩, ?_⟩
  rw [hquiet, List.append_nil]

/-- A cycle in which a beat is consumed or L2 is asked. -/
theorem At.moves (h : o.At s) (o' : HomeOpen) (hcmd : o'.command = o.command)
    (hevents : o'.events = o.events ++ s.cycleEvents i) (hph : o'.Phase (s.step i)) :
    o.Advances s i := by
  have hsame := sameCommand_step (i := i) h.notIdle
  refine ⟨o', ⟨?_, ?_, ?_, hph⟩, hevents⟩
  · rw [hcmd]
    exact hsame.ids.trans h.ids
  · rw [hcmd]
    exact hsame.op.trans h.op
  · rw [hcmd]
    exact hsame.malformed.trans h.malformed

theorem at_of_requestFire (hst : s.stateQ = .idle) (hfire : s.requestFire i) :
    (HomeOpen.mk (commandOf i) [] []).At (s.step i) := by
  have hstep : (s.step i).stateQ = (s.acceptRequest i).stateQ := by
    simp only [CoherentState.step, home, hst, hfire, if_true]
  have herr : (s.step i).respErrorQ = requestProtocolError p i := by
    simp only [CoherentState.step, home, hst, hfire, if_true, acceptRequest]
  refine ⟨?_, ?_, ?_, ?_⟩
  · simp only [requestIds, CoherentState.step, home, hst, hfire, if_true, acceptRequest, commandOf]
  · simp only [CoherentState.step, home, hst, hfire, if_true, acceptRequest, commandOf]
  · simp only [CoherentState.step, home, hst, hfire, if_true, acceptRequest, commandOf]
  · rw [Phase, hstep, acceptRequest]
    by_cases hdata : i.reqOpI = icxOpWrite ∨ i.reqOpI = icxOpSc
    · simp only [if_pos hdata]
      exact ⟨if_pos hdata, trivial, trivial⟩
    have hdue : (commandOf i).due = 0 := if_neg hdata
    cases hmalformed : requestProtocolError p i with
    | true =>
      simp only [if_neg hdata, if_true]
      refine ⟨hdue.symm, .refused ?_ (herr.trans hmalformed) rfl⟩
      intro hclean
      exact Bool.false_ne_true (hclean.1.symm.trans hmalformed)
    | false =>
      simp only [if_neg hdata, if_low]
      exact ⟨⟨⟨hmalformed, fun b hb => absurd hb List.not_mem_nil⟩, hdue.symm⟩, trivial⟩

section

variable (h : o.At s)

include h

theorem fits_iff : (beatOf i).Fits o.command ↔ s.wdataProtocolError i = false := by
  have hids := h.ids
  constructor
  · intro hfits
    have hbeat := hfits.ids.trans hids.symm
    simp only [beatOf, requestIds, HomeIds.mk.injEq] at hbeat
    have hidx : i.wdataBeatIndexI = 0 := hfits.index
    have hlast : i.wdataLastI := hfits.last
    simp [wdataProtocolError, hbeat, hidx, hlast]
  · intro herr
    simp only [wdataProtocolError, Bool.or_eq_false_iff, bne_eq_false_iff_eq,
      Bool.not_eq_false'] at herr
    obtain ⟨⟨⟨⟨hhart, htxn⟩, hsrc⟩, hidx⟩, hlast⟩ := herr
    refine ⟨?_, hidx, hlast⟩
    rw [← hids, beatOf, requestIds, hhart, htxn, hsrc]

/-- The beat of a command is consumed, and a bad command or a bad beat is answered
at once. -/
theorem At.step_waitWdata (hst : s.stateQ = .waitWdata) : o.Advances s i := by
  have hph := h.phase
  rw [Phase, hst] at hph
  obtain ⟨hdue, hbeats, hnone⟩ := hph
  cases hfire : s.wdataFire i with
  | false =>
    apply h.quiet
    · rw [cycleEvents_waitWdata hst, hfire, if_low]
    · simp only [Phase, CoherentState.step, home, hst, hfire, if_low]
      exact ⟨hdue, hbeats, hnone⟩
  | true =>
    have hevents : s.cycleEvents i = [.beat (beatOf i)] := by
      rw [cycleEvents_waitWdata hst, hfire, if_pos rfl]
    apply h.moves { o with beats := [beatOf i] } rfl
    · rw [hevents]
      exact events_beat hbeats hnone _
    · cases hbad : s.commandErrorQ || s.wdataProtocolError i with
      | true =>
        simp only [Phase, CoherentState.step, home, hst, hfire, hbad, if_true]
        refine ⟨hdue.symm, .refused ?_ rfl hnone⟩
        rintro ⟨hclean, hfits⟩
        have hcmd : s.commandErrorQ = false := h.malformed.trans hclean
        have hbeat := (fits_iff h).mp (hfits _ List.mem_cons_self)
        rw [hcmd, hbeat] at hbad
        cases hbad
      | false =>
        simp only [Phase, CoherentState.step, home, hst, hfire, hbad,
          Bool.false_eq_true, if_true, if_false]
        rw [Bool.or_eq_false_iff] at hbad
        refine ⟨⟨⟨h.malformed.symm.trans hbad.1, ?_⟩, hdue.symm⟩, hnone⟩
        intro b hb
        rw [List.mem_singleton.mp hb]
        exact (fits_iff h).mpr hbad.2

theorem At.step_dirLookup (hst : s.stateQ = .dirLookup) : o.Advances s i := by
  have hph := h.phase
  rw [Phase, hst] at hph
  apply h.quiet
  · apply cycleEvents_quiet <;> simp [hst]
  · simp only [Phase, CoherentState.step, home, hst]
    cases s.filter.lookupReadyO s.filterInput with
    | true => exact hph
    | false => exact hph

/-- The directory's answer ends a store-conditional that has lost its reservation, and
lets every other command go on. -/
theorem At.phase_directory (hrdy : o.Ready) (hnone : o.forwards = []) :
    o.Phase (s.directoryResponse i) := by
  simp only [directoryResponse]
  generalize hsc : (if s.reqOpQ = icxOpSc then s.requestScReservationMatch
    else s.respScSuccessQ) = sc
  split
  · rename_i hfail
    rw [Bool.and_eq_true, beq_iff_eq, Bool.not_eq_true'] at hfail
    rw [if_pos hfail.1, hfail.2] at hsc
    exact ⟨hrdy.beats, .failed hrdy.clean (h.op.symm.trans hfail.1) hsc.symm hnone⟩
  rename_i hgoes
  have hheld : o.command.op = icxOpSc → sc := by
    intro hop
    rw [h.op, hop, if_pos rfl] at hsc
    rw [h.op, hop, beq_self_eq_true, Bool.true_and, Bool.not_eq_true,
      Bool.not_eq_false', hsc] at hgoes
    exact hgoes
  repeat' split
  all_goals exact ⟨hrdy, hnone, hheld⟩

theorem At.step_dirWait (hst : s.stateQ = .dirWait) : o.Advances s i := by
  have hph := h.phase
  rw [Phase, hst] at hph
  apply h.quiet
  · apply cycleEvents_quiet <;> simp [hst]
  · have hhome : o.Phase (s.home i) := by
      cases hval : s.filter.lookupResponseValidO with
      | true =>
        simp only [home, hst, hval, if_true]
        exact h.phase_directory hph.1 hph.2
      | false =>
        apply h.phase.transfer <;>
          simp only [home, hst, hval, if_low]
    exact hhome.transfer rfl rfl rfl

/-- The states between the directory's answer and the L2 request. -/
theorem At.step_probing (hst : s.stateQ = .evictProbeStart ∨
    s.stateQ = .evictProbeWait ∨ s.stateQ = .dirAllocate ∨ s.stateQ = .writeProbeStart ∨
      s.stateQ = .writeProbeWait ∨ s.stateQ = .dirClear) : o.Advances s i := by
  have hph := h.phase
  apply h.quiet
  · apply cycleEvents_quiet <;>
      rcases hst with hs | hs | hs | hs | hs | hs <;> simp [hs]
  · rcases hst with hs | hs | hs | hs | hs | hs <;> rw [Phase, hs] at hph <;>
      simp only [Phase, CoherentState.step, home, hs]
    · cases s.tracker.startReadyO <;> exact hph
    · cases s.tracker.doneValidQ <;> exact hph
    · exact hph
    · cases s.tracker.startReadyO <;> exact hph
    · cases s.tracker.doneValidQ <;> exact hph
    · exact hph

theorem At.step_l2Req (hst : s.stateQ = .l2Req) : o.Advances s i := by
  have hph := h.phase
  rw [Phase, hst] at hph
  obtain ⟨hrdy, hnone, hheld⟩ := hph
  cases hfire : s.l2RequestFire i with
  | false =>
    apply h.quiet
    · rw [cycleEvents_l2Req hst, hfire, if_low]
    · simp only [Phase, CoherentState.step, home, hst, hfire, if_low]
      exact ⟨hrdy, hnone, hheld⟩
  | true =>
    apply h.moves { o with forwards := [s.requestIds] } rfl
    · rw [cycleEvents_l2Req hst, hfire, if_pos rfl]
      exact events_forward hnone _
    · have hone : [s.requestIds] = [o.command.ids] := by rw [h.ids]
      simp only [Phase, CoherentState.step, home, hst, hfire, if_true]
      cases s.requestIsWrite with
      | true => exact ⟨⟨hrdy.clean, hrdy.beats⟩, hone, hheld⟩
      | false => exact ⟨⟨hrdy.clean, hrdy.beats⟩, hone, hheld⟩

theorem At.step_served (hst : s.stateQ = .l2Wdata ∨
    s.stateQ = .l2Resp ∨ s.stateQ = .dirRecord) : o.Advances s i := by
  have hph := h.phase
  apply h.quiet
  · apply cycleEvents_quiet <;>
      rcases hst with hs | hs | hs <;> simp [hs]
  · have hserved : o.Ready ∧ o.forwards = [o.command.ids] ∧ o.ScHeld s := by
      rcases hst with hs | hs | hs <;> rw [Phase, hs] at hph <;> exact hph
    obtain ⟨hrdy, hone, hheld⟩ := hserved
    rcases hst with hs | hs | hs <;>
      simp only [Phase, CoherentState.step, home, hs]
    · cases s.l2WdataFire i with
      | true => exact ⟨hrdy, hone, hheld⟩
      | false => exact ⟨hrdy, hone, hheld⟩
    · cases s.l2ResponseFire i with
      | false =>
        simp only [if_low]
        rw [← hs]
        exact ⟨hrdy, hone, hheld⟩
      | true =>
        have hsc : o.ScHeld (s.l2Response i) := by
          intro hop
          simp only [l2Response, h.op, hop, if_true]
          exact hheld hop
        simp only [if_true, l2Response]
        cases s.requestPrivateFill && !(i.l2RespErrorI || s.l2ResponseIdentityError i) with
        | true => exact ⟨hrdy, hone, hsc⟩
        | false => exact ⟨hrdy.beats, .served hrdy.clean hsc hone⟩
    · exact ⟨hrdy.beats, .served hrdy.clean hheld hone⟩

/-- The response is shown until its requester takes it. -/
theorem At.step_resp (hst : s.stateQ = .resp)
    (hfire : s.responseFire i = false) : o.Advances s i := by
  apply h.quiet
  · rw [cycleEvents_resp hst, hfire, if_low]
  · apply h.phase.transfer <;>
      simp only [CoherentState.step, home, hst, hfire, if_low]

theorem At.step (hfire : s.responseFire i = false) : o.Advances s i := by
  cases hst : s.stateQ with
  | idle => exact absurd hst h.notIdle
  | waitWdata => exact h.step_waitWdata hst
  | dirLookup => exact h.step_dirLookup hst
  | dirWait => exact h.step_dirWait hst
  | evictProbeStart | evictProbeWait | dirAllocate | writeProbeStart | writeProbeWait
  | dirClear => exact h.step_probing (by simp [hst])
  | l2Req => exact h.step_l2Req hst
  | l2Wdata | l2Resp | dirRecord => exact h.step_served (by simp [hst])
  | resp => exact h.step_resp hst hfire

theorem At.closes (hfire : s.responseFire i) :
    (s.step i).stateQ = .idle ∧ (HomeVisit.mk o s.responseOf).Proper ∧
      (HomeVisit.mk o s.responseOf).events = o.events ++ s.cycleEvents i := by
  have hst : s.stateQ = .resp := by
    simp only [responseFire, respValidO, Bool.and_eq_true, beq_iff_eq] at hfire
    exact hfire.1
  have hph := h.phase
  rw [Phase, hst] at hph
  refine ⟨?_, hph.2.proper h.ids hph.1, ?_⟩
  · simp only [CoherentState.step, home, hst, hfire, if_true]
  · rw [cycleEvents_resp hst, hfire, if_pos rfl]
    rfl

end

end Step

end HomeOpen

/-! ## Every run -/

namespace CoherentState

variable {p : CoherentParams} {past : Past (CoherentState p) (CoherentInput p)}
  {s : CoherentState p} {i : CoherentInput p}

/-- The run consists of proper visits and of the one that the home works on. -/
def Tracked (past : Past (CoherentState p) (CoherentInput p)) (s : CoherentState p) : Prop :=
  ∃ visits : List HomeVisit, (∀ v ∈ visits, v.Proper) ∧
    ((s.stateQ = .idle ∧ events past = visits.flatMap HomeVisit.events) ∨
      ∃ o : HomeOpen, o.At s ∧ events past = visits.flatMap HomeVisit.events ++ o.events)

theorem Tracked.step (h : Tracked past s) : Tracked ((s, i) :: past) (s.step i) := by
  obtain ⟨visits, hproper, hwork⟩ := h
  rw [Tracked, events]
  rcases hwork with ⟨hidle, hevents⟩ | ⟨o, hat, hevents⟩
  · rw [hevents, cycleEvents_idle hidle]
    cases hfire : s.requestFire i with
    | true => exact ⟨visits, hproper, .inr ⟨_, HomeOpen.at_of_requestFire hidle hfire, rfl⟩⟩
    | false =>
      refine ⟨visits, hproper, .inl ⟨?_, List.append_nil _⟩⟩
      simp only [CoherentState.step, home, hidle, hfire, if_low]
  rw [hevents]
  cases hfire : s.responseFire i with
  | true =>
    obtain ⟨hidle, hclosed, hvisit⟩ := hat.closes hfire
    refine ⟨visits ++ [⟨o, s.responseOf⟩], ?_, .inl ⟨hidle, ?_⟩⟩
    · intro v hv
      rcases List.mem_append.mp hv with hold | hnew
      · exact hproper v hold
      · rw [List.mem_singleton.mp hnew]
        exact hclosed
    · rw [List.flatMap_append, List.flatMap_singleton, hvisit, List.append_assoc]
  | false =>
    obtain ⟨o', hat', hnxt⟩ := hat.step hfire
    refine ⟨visits, hproper, .inr ⟨o', hat', ?_⟩⟩
    rw [hnxt, List.append_assoc]

theorem tracked_of_run (hrun : Run (coherentHome p) anyEnv past s) : Tracked past s := by
  apply hrun.invariant (P := Tracked)
  · rintro s ⟨powerUp, rfl⟩
    exact ⟨[], fun v hv => absurd hv List.not_mem_nil, .inl ⟨rfl, rfl⟩⟩
  · intro past s i _ _ h
    exact h.step

/-- The channels of every run carry complete visits, one after the other, and the
beginning of one more. -/
theorem paired_of_run (hrun : Run (coherentHome p) anyEnv past s) : Paired past s := by
  obtain ⟨visits, hproper, hidle | ⟨o, hat, hevents⟩⟩ := tracked_of_run hrun
  · exact ⟨visits, hproper, .inl hidle⟩
  · exact ⟨visits, hproper, .inr ⟨hat.notIdle, o, hat.phase.begun.2, hat.ids, hevents⟩⟩

end CoherentState

end OpenRV64
