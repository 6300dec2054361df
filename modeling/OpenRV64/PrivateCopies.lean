/-
The coherence home composed with the private write-through D caches and the
L2 line store: no write is presented to L2 over another hart's copy, and every
private copy is L2's line.
-/
import OpenRV64.DirectorySound

namespace OpenRV64

open Bool (and_eq_true not_eq_true' or_eq_true)

/-- The bytes of a line that a strobe selects. -/
def strobeMask (wstrb : BitVec 64) : BitVec 512 :=
  (List.range 64).foldl
    (fun mask byte =>
      if wstrb.getLsbD byte then mask ||| (0xff#512 <<< (8 * byte)) else mask)
    0

/-- A line after a strobed write. -/
def mergeLine (line wdata : BitVec 512) (wstrb : BitVec 64) : BitVec 512 :=
  (wdata &&& strobeMask wstrb) ||| (line &&& ~~~ strobeMask wstrb)

/-- The home, what each private D cache holds, and what L2 holds. -/
structure SystemState (p : CoherentParams) where
  home : CoherentState p
  copy : Fin p.numHarts → BitVec 64 → Option (BitVec 512)
  l2 : BitVec 64 → BitVec 512

/-- The signals around the home, and the lines that private caches evict
silently. -/
structure SystemInput (p : CoherentParams) where
  port : CoherentInput p
  evict : Fin p.numHarts → BitVec 64 → Bool

namespace SystemState

open CoherentState

variable {p : CoherentParams}

/-- The line of the request in progress is answered as a D$ fill of hart `h`. -/
def fills (s : SystemState p) (i : SystemInput p) (h : Fin p.numHarts) : Bool :=
  s.home.responseFire i.port && !s.home.respErrorQ && s.home.requestCacheable &&
    (s.home.reqOpQ == icxOpRead || s.home.reqOpQ == icxOpLr) &&
    s.home.reqSourceIdQ == icxSourceDcache && s.home.requestHartMask h

/-- A store of hart `h` is answered without error. -/
def stores (s : SystemState p) (i : SystemInput p) (h : Fin p.numHarts) : Bool :=
  s.home.responseFire i.port && !s.home.respErrorQ &&
    s.home.reqOpQ == icxOpWrite && s.home.requestHartMask h

/-- Hart `h` acknowledges a D probe for `line`. -/
def acknowledges (s : SystemState p) (i : SystemInput p) (h : Fin p.numHarts)
    (line : BitVec 64) : Bool :=
  s.home.tracker.busyQ && s.home.tracker.ackMatches (s.home.trackerInput i.port) h &&
    s.home.tracker.lineAddrQ == line && maskNames s.home.tracker.cacheMaskQ .dcache

/-- Hart `h` issues an SC to `line`, before which it dropped its own copy. -/
def issuesSc (s : SystemState p) (i : SystemInput p) (h : Fin p.numHarts)
    (line : BitVec 64) : Bool :=
  s.home.requestFire i.port && i.port.reqOpI == icxOpSc &&
    i.port.reqHartIdI == p.hartId h && lineAddr i.port.reqAddrI == line

/-- A private D cache installs a fill, merges its own store, and drops a line
on an acknowledged probe, on its own SC and on a silent eviction. -/
def nextCopy (s : SystemState p) (i : SystemInput p) (h : Fin p.numHarts)
    (line : BitVec 64) : Option (BitVec 512) :=
  if s.fills i h && s.home.requestLineAddr == line then some s.home.respRdataQ
  else if s.acknowledges i h line || s.issuesSc i h line || i.evict h line then
    none
  else if s.stores i h && s.home.requestLineAddr == line then
    (s.copy h line).map fun held => mergeLine held s.home.wdataQ s.home.wstrbQ
  else s.copy h line

/-- L2 performs a write that it answers without error. -/
def nextL2 (s : SystemState p) (i : SystemInput p) (line : BitVec 64) : BitVec 512 :=
  if s.home.l2ResponseFire i.port && s.home.requestIsWrite &&
      !i.port.l2RespErrorI && s.home.requestLineAddr == line
    then mergeLine (s.l2 line) s.home.wdataQ s.home.wstrbQ
  else s.l2 line

def step (s : SystemState p) (i : SystemInput p) : SystemState p where
  home := s.home.step i.port
  copy := s.nextCopy i
  l2 := s.nextL2 i

/-- What L2 promises: it answers the request it was given, and a read without
error returns its line. -/
def l2Ok (s : SystemState p) (i : SystemInput p) : Bool :=
  !s.home.l2ResponseFire i.port ||
    (!s.home.l2ResponseIdentityError i.port &&
      (s.home.requestIsWrite || i.port.l2RespErrorI ||
        i.port.l2RespRdataI == s.l2 s.home.requestLineAddr))

/-- Some other hart holds the line of the request. -/
def remoteCopy (s : SystemState p) : Bool :=
  HartVec.any fun h => (s.copy h s.home.requestLineAddr).isSome && !s.home.requestHartMask h

/-- The branches that leave a copy behind are not taken: the directory is safe,
and an uncacheable WRITE reaches L2 only where no other hart holds its line. -/
def copiesSafe (s : SystemState p) (i : SystemInput p) : Bool :=
  directorySafe s.home i.port &&
    !(s.home.stateQ == .l2Req && s.home.requestIsWrite && !s.home.requestExclusive && s.remoteCopy)

/-- A cacheable WRITE or a successful SC is presented to L2. -/
def Presenting (s : SystemState p) : Prop :=
  (s.home.stateQ = .l2Req ∨ s.home.stateQ = .l2Wdata ∨
    s.home.stateQ = .l2Resp) ∧ s.home.requestExclusive = true

/-- Hart `h` has a store to `line` in flight. -/
def OwnWrite (s : SystemState p) (h : Fin p.numHarts) (line : BitVec 64) : Prop :=
  s.home.stateQ ≠ .idle ∧ s.home.reqOpQ = icxOpWrite ∧
    s.home.requestHartMask h = true ∧ s.home.requestLineAddr = line

/-- No copy but the requester's own is under a write, and every copy is L2's
line except under an own write in flight. -/
structure Coherent (s : SystemState p) : Prop where
  exclusive : s.Presenting → ∀ h, s.copy h s.home.requestLineAddr ≠ none →
    s.home.requestHartMask h = true
  current : ∀ h line held, s.copy h line = some held → held = s.l2 line ∨ s.OwnWrite h line

/-- The copies of the D caches, as the directory has to cover them. -/
def held (s : SystemState p) : Copies p :=
  fun c line h => c = .dcache ∧ (s.copy h line).isSome = true

/-- The store of the request was performed by L2 and is not yet merged into
the requester's own copy. -/
structure Performed (s : SystemState p) (h : Fin p.numHarts)
    (line : BitVec 64) : Prop where
  state : s.home.stateQ = .resp
  op : s.home.reqOpQ = icxOpWrite
  noError : s.home.respErrorQ = false
  hart : s.home.requestHartMask h = true
  line : s.home.requestLineAddr = line

structure SystemInv (s : SystemState p) : Prop where
  home : HomeInv s.held s.home
  /-- While L2 may perform a write nobody else holds its line. -/
  alone : s.home.stateQ = .l2Wdata ∨ s.home.stateQ = .l2Resp → s.home.requestIsWrite = true → ∀ h,
      (s.copy h s.home.requestLineAddr).isSome = true → s.home.requestHartMask h = true
  scDropped : s.home.stateQ ≠ .idle → s.home.reqOpQ = icxOpSc → ∀ h,
    s.home.requestHartMask h = true → s.copy h s.home.requestLineAddr = none
  /-- What the response of a fill hands over is L2's line. -/
  readReady : s.home.stateQ = .dirRecord ∨ s.home.stateQ = .resp →
    s.home.requestPrivateFill = true → s.home.respErrorQ = false →
      s.home.respRdataQ = s.l2 s.home.requestLineAddr
  performed : ∀ h line held, s.copy h line = some held → s.Performed h line →
    s.l2 line = mergeLine held s.home.wdataQ s.home.wstrbQ
  current : ∀ h line held, s.copy h line = some held → ¬ s.Performed h line → s.l2 line = held

/-! ## One cycle -/

section Step

variable {s : SystemState p} {i : SystemInput p}

theorem responseFire_resp (h : s.home.responseFire i.port) :
    s.home.stateQ = .resp ∧ i.port.respReadyI := by
  simpa [responseFire, respValidO] using h

theorem l2ResponseFire_l2Resp (h : s.home.l2ResponseFire i.port) : s.home.stateQ = .l2Resp := by
  simp only [l2ResponseFire, l2RespReadyO, and_eq_true, beq_iff_eq] at h
  exact h.2

theorem answered_of_fills {h : Fin p.numHarts} (hfills : s.fills i h) :
    Answered .dcache s.home.requestLineAddr h s.home i.port := by
  simp only [fills, and_eq_true, or_eq_true, beq_iff_eq, not_eq_true'] at hfills
  obtain ⟨⟨⟨⟨⟨hfire, hok⟩, hcach⟩, hop⟩, hsrc⟩, hhart⟩ := hfills
  exact ⟨hfire, hok, hcach, hop, hsrc, hhart, rfl⟩

/-- Where a copy comes from: a fill, an own store or the copy before. -/
theorem nextCopy_eq_some {h : Fin p.numHarts} {line : BitVec 64}
    {held : BitVec 512} (hcopy : (s.step i).copy h line = some held) :
    (s.fills i h ∧ s.home.requestLineAddr = line ∧ held = s.home.respRdataQ) ∨
      (s.acknowledges i h line = false ∧ s.issuesSc i h line = false ∧
        ((s.stores i h ∧ s.home.requestLineAddr = line ∧ ∃ before, s.copy h line = some before ∧
              held = mergeLine before s.home.wdataQ s.home.wstrbQ) ∨
          ((s.stores i h → s.home.requestLineAddr ≠ line) ∧ s.copy h line = some held))) := by
  simp only [step, nextCopy] at hcopy
  split at hcopy
  · rename_i hfills
    simp only [and_eq_true, beq_iff_eq] at hfills
    exact .inl ⟨hfills.1, hfills.2, (Option.some.inj hcopy).symm⟩
  split at hcopy
  · simp at hcopy
  rename_i hdropped
  simp only [or_eq_true, not_or, Bool.not_eq_true] at hdropped
  refine .inr ⟨hdropped.1.1, hdropped.1.2, ?_⟩
  split at hcopy
  · rename_i hstores
    simp only [and_eq_true, beq_iff_eq] at hstores
    obtain ⟨before, hbef, hmerge⟩ := Option.map_eq_some_iff.mp hcopy
    exact .inl ⟨hstores.1, hstores.2, before, hbef, hmerge.symm⟩
  · rename_i hstores
    simp only [and_eq_true, beq_iff_eq, not_and] at hstores
    exact .inr ⟨hstores, hcopy⟩

theorem copiesStep (hinv : SystemInv s) : CopiesStep s.held (s.step i).held s.home i.port := by
  rintro c line h ⟨rfl, hsome⟩
  obtain ⟨held, hcopy⟩ := Option.isSome_iff_exists.mp hsome
  rcases nextCopy_eq_some hcopy with ⟨hfills, rfl, -⟩ | ⟨hack, -, hkept⟩
  · exact .inl (answered_of_fills hfills)
  have hbef : (s.copy h line).isSome := by
    rcases hkept with ⟨-, -, before, hbef, -⟩ | ⟨-, hbef⟩ <;>
      simp [hbef]
  refine .inr ⟨⟨rfl, hbef⟩, ?_⟩
  rintro (⟨hbsy, hmat, hline, hmask⟩ | ⟨-, hst, hop, hmask, rfl⟩)
  · simp [acknowledges, hbsy, hmat, hline, hmask] at hack
  · simp [hinv.scDropped (by simp [hst]) hop h hmask] at hbef

/-- Outside `ST_RESP` copies only go away. -/
theorem copy_kept (hst : s.home.stateQ ≠ .resp) {h : Fin p.numHarts}
    {line : BitVec 64} {held : BitVec 512}
    (hcopy : (s.step i).copy h line = some held) : s.copy h line = some held := by
  have hfire : s.home.responseFire i.port = false := by
    by_contra hfire
    exact hst (responseFire_resp (by simpa using hfire)).1
  rcases nextCopy_eq_some hcopy with ⟨hfills, -⟩ | ⟨-, -, hkept⟩
  · simp [fills, hfire] at hfills
  · rcases hkept with ⟨hstores, -⟩ | ⟨-, hbef⟩
    · simp [stores, hfire] at hstores
    · exact hbef

theorem l2_kept (hst : s.home.stateQ ≠ .l2Resp) (line : BitVec 64) :
    (s.step i).l2 line = s.l2 line := by
  have hfire : s.home.l2ResponseFire i.port = false := by
    by_contra hfire
    exact hst (l2ResponseFire_l2Resp (by simpa using hfire))
  simp [step, nextL2, hfire]

theorem alone_step (hinv : SystemInv s) (hsafe : s.copiesSafe i)
    (hst : (s.step i).home.stateQ = .l2Wdata ∨ (s.step i).home.stateQ = .l2Resp)
    (hwr : (s.step i).home.requestIsWrite) (h : Fin p.numHarts)
    (hcopy : ((s.step i).copy h (s.step i).home.requestLineAddr).isSome) :
    (s.step i).home.requestHartMask h := by
  have hfrom : ∀ a b : HomeState, b ∈ a.next → b = .l2Wdata ∨ b = .l2Resp →
      a = .l2Req ∨ a = .l2Wdata ∨ a = .l2Resp := by
    intro a b
    cases a <;> cases b <;> decide
  have hbef := hfrom _ _ (stateQ_step_mem s.home i.port) hst
  have hidle : s.home.stateQ ≠ .idle := by
    rcases hbef with h | h | h <;> simp [h]
  have hrsp : s.home.stateQ ≠ .resp := by
    rcases hbef with h | h | h <;> simp [h]
  have hsame : SameRequest s.home (s.step i).home := sameRequest_step hidle i.port
  rw [hsame.requestIsWrite] at hwr
  rw [hsame.requestLineAddr] at hcopy
  rw [hsame.requestHartMask]
  obtain ⟨held, hsome⟩ := Option.isSome_iff_exists.mp hcopy
  have hheld : (s.copy h s.home.requestLineAddr).isSome := by
    simp [copy_kept hrsp hsome]
  rcases hbef with hreq | hreq | hreq
  · by_cases hexcl : s.home.requestExclusive
    · have hph := hinv.home.phase
      simp only [PhaseInv, hreq] at hph
      exact hph.2 hexcl h ⟨rfl, hheld⟩
    · by_contra hmask
      have hremote : s.remoteCopy := HartVec_any_of (h := h) (by simpa [hheld] using hmask)
      simp [copiesSafe, hreq, hwr, hexcl, hremote] at hsafe
  · exact hinv.alone (.inl hreq) hwr h hheld
  · exact hinv.alone (.inr hreq) hwr h hheld

theorem scDropped_step (hinv : SystemInv s) (hst : (s.step i).home.stateQ ≠ .idle)
    (hop : (s.step i).home.reqOpQ = icxOpSc) (h : Fin p.numHarts)
    (hmask : (s.step i).home.requestHartMask h) :
    (s.step i).copy h (s.step i).home.requestLineAddr = none := by
  by_contra hsome
  obtain ⟨held, hcopy⟩ := Option.ne_none_iff_exists'.mp hsome
  by_cases hidle : s.home.stateQ = .idle
  · have hfire : s.home.requestFire i.port := by
      by_contra hfire
      exact hst (by simp [step, CoherentState.step, CoherentState.home, hidle, hfire])
    have hregs : i.port.reqOpI = icxOpSc ∧ i.port.reqHartIdI = p.hartId h ∧
        (s.step i).home.requestLineAddr = lineAddr i.port.reqAddrI := by
      simp only [step, CoherentState.step, CoherentState.home, hidle, hfire,
        if_true, acceptRequest] at hop hmask ⊢
      exact ⟨hop, by simpa [requestHartMask] using hmask, rfl⟩
    obtain ⟨hsc, hhart, hline⟩ := hregs
    rw [hline] at hcopy
    have hnotFire : s.home.responseFire i.port = false := by
      simp [responseFire, respValidO, hidle]
    rcases nextCopy_eq_some hcopy with ⟨hfills, -⟩ | ⟨-, hissues, -⟩
    · simp [fills, hnotFire] at hfills
    · simp [issuesSc, hfire, hsc, hhart] at hissues
  have hsame : SameRequest s.home (s.step i).home := sameRequest_step hidle i.port
  rw [hsame.op] at hop
  rw [hsame.requestHartMask] at hmask
  rw [hsame.requestLineAddr] at hcopy
  have hnone := hinv.scDropped hidle hop h hmask
  rcases nextCopy_eq_some hcopy with ⟨hfills, -⟩ | ⟨-, -, hkept⟩
  · simp [fills, hop, icxOpSc, icxOpRead, icxOpLr] at hfills
  · rcases hkept with ⟨-, -, before, hbef, -⟩ | ⟨-, hbef⟩ <;>
      simp [hnone] at hbef

/-- What an accepted L2 response leaves in the response registers. -/
theorem l2Response_regs (hfire : s.home.l2ResponseFire i.port) :
    (s.step i).home.respErrorQ = (i.port.l2RespErrorI || s.home.l2ResponseIdentityError i.port) ∧
      (s.step i).home.respRdataQ = i.port.l2RespRdataI := by
  have hst := l2ResponseFire_l2Resp hfire
  simp [step, CoherentState.step, CoherentState.home, hst, hfire, l2Response]

/-- The response registers hold once L2 has answered. -/
theorem resp_regs (hst : s.home.stateQ = .dirRecord ∨ s.home.stateQ = .resp) :
    (s.step i).home.respErrorQ = s.home.respErrorQ ∧
      (s.step i).home.respRdataQ = s.home.respRdataQ := by
  rcases hst with h | h <;>
    simp [step, CoherentState.step, CoherentState.home, h]

/-- `ST_RESP` is entered with an error, with a failed SC, from L2 or after the
recording of a fill. -/
theorem resp_entered (hnxt : (s.step i).home.stateQ = .resp) :
    (s.step i).home.respErrorQ ∨ (s.home.stateQ = .dirWait ∧ s.home.reqOpQ = icxOpSc) ∨
      s.home.l2ResponseFire i.port ∨ s.home.stateQ = .dirRecord ∨ s.home.stateQ = .resp := by
  have hedge : ∀ a : HomeState, .resp ∈ a.next → a = .idle ∨ a = .waitWdata ∨
      a = .dirWait ∨ a = .l2Resp ∨ a = .dirRecord ∨ a = .resp := by
    intro a
    cases a <;> decide
  have hmem := stateQ_step_mem s.home i.port
  change (s.step i).home.stateQ ∈ _ at hmem
  rw [hnxt] at hmem
  rcases hedge _ hmem with h | h | h | h | h | h
  · left
    simp only [step, CoherentState.step, CoherentState.home, h] at hnxt ⊢
    by_cases hfire : s.home.requestFire i.port
    · simp only [hfire, if_true, acceptRequest] at hnxt ⊢
      split at hnxt
      · simp at hnxt
      · split at hnxt
        · assumption
        · simp at hnxt
    · simp [hfire] at hnxt
  · left
    simp only [step, CoherentState.step, CoherentState.home, h] at hnxt ⊢
    by_cases hfire : s.home.wdataFire i.port
    · simp only [hfire, if_true] at hnxt ⊢
      split at hnxt
      · rename_i herr
        simp [herr]
      · simp at hnxt
    · simp [hfire] at hnxt
  · right; left
    by_cases hval : s.home.filter.lookupResponseValidO
    · change (s.home.step i.port).stateQ = .resp at hnxt
      cases directoryOutcome (i := i.port) h hval with
      | failedSc _ _ hop => exact ⟨h, hop⟩
      | fillHit hn | fillEvict hn | fillAllocate hn | writeProbe hn | scClear hn
      | direct hn => simp [hn] at hnxt
    · simp [step, CoherentState.step, CoherentState.home, h, hval] at hnxt
  · right; right; left
    by_contra hfire
    simp [step, CoherentState.step, CoherentState.home, h, hfire] at hnxt
  · exact .inr (.inr (.inr (.inl h)))
  · exact .inr (.inr (.inr (.inr h)))

theorem readReady_step (hinv : SystemInv s) (hl2 : s.l2Ok i)
    (hst : (s.step i).home.stateQ = .dirRecord ∨ (s.step i).home.stateQ = .resp)
    (hfill : (s.step i).home.requestPrivateFill)
    (hok : (s.step i).home.respErrorQ = false) :
    (s.step i).home.respRdataQ = (s.step i).l2 (s.step i).home.requestLineAddr := by
  have hcases : s.home.l2ResponseFire i.port ∨ s.home.stateQ = .dirRecord ∨ s.home.stateQ = .resp ∨
      (s.home.stateQ = .dirWait ∧ s.home.reqOpQ = icxOpSc) := by
    rcases hst with hnxt | hnxt
    · have hedge : ∀ a : HomeState, .dirRecord ∈ a.next → a = .l2Resp := by
        intro a
        cases a <;> decide
      have hmem := stateQ_step_mem s.home i.port
      change (s.step i).home.stateQ ∈ _ at hmem
      rw [hnxt] at hmem
      have hfrom := hedge _ hmem
      left
      by_contra hfire
      simp [step, CoherentState.step, CoherentState.home, hfrom, hfire] at hnxt
    rcases resp_entered hnxt with h | h | h | h | h
    · simp [h] at hok
    · exact .inr (.inr (.inr h))
    · exact .inl h
    · exact .inr (.inl h)
    · exact .inr (.inr (.inl h))
  have hidle : s.home.stateQ ≠ .idle := by
    rcases hcases with h | h | h | ⟨h, -⟩
    · simp [l2ResponseFire_l2Resp h]
    · simp [h]
    · simp [h]
    · simp [h]
  have hsame : SameRequest s.home (s.step i).home := sameRequest_step hidle i.port
  rw [hsame.requestPrivateFill] at hfill
  rw [hsame.requestLineAddr]
  have hread : s.home.requestIsWrite = false := by
    by_contra hwr
    simp [requestPrivateFill_of_isWrite (by simpa using hwr)] at hfill
  rcases hcases with h | h | h | ⟨-, h⟩
  · obtain ⟨herr, hdata⟩ := l2Response_regs h
    rw [herr, Bool.or_eq_false_iff] at hok
    have hline : (s.step i).l2 s.home.requestLineAddr = s.l2 s.home.requestLineAddr := by
      simp [step, nextL2, hread]
    rw [hdata, hline]
    simpa [l2Ok, h, hread, hok.1, hok.2] using hl2
  · obtain ⟨herr, hdata⟩ := resp_regs (i := i) (.inl h)
    rw [hdata, l2_kept (by simp [h])]
    exact hinv.readReady (.inl h) hfill (herr ▸ hok)
  · obtain ⟨herr, hdata⟩ := resp_regs (i := i) (.inr h)
    rw [hdata, l2_kept (by simp [h])]
    exact hinv.readReady (.inr h) hfill (herr ▸ hok)
  · simp [requestIsWrite, h] at hread

/-- The data registers of a store hold from its data beat to its response. -/
theorem wdata_kept (hst : s.home.stateQ ≠ .waitWdata) :
    (s.step i).home.wdataQ = s.home.wdataQ ∧ (s.step i).home.wstrbQ = s.home.wstrbQ := by
  have hdirectory : (s.home.directoryResponse i.port).wdataQ = s.home.wdataQ ∧
      (s.home.directoryResponse i.port).wstrbQ = s.home.wstrbQ := by
    simp only [directoryResponse]
    repeat' split
    all_goals simp
  have hhome : (s.home.home i.port).wdataQ = s.home.wdataQ ∧
      (s.home.home i.port).wstrbQ = s.home.wstrbQ := by
    rw [CoherentState.home]
    split
    case h_2 h => exact absurd h hst
    all_goals repeat' split
    all_goals first
      | exact hdirectory
      | simp [acceptRequest, l2Response]
  exact hhome

/-- The write that L2 performs in this cycle reaches only its own line. -/
theorem l2_step (line : BitVec 64) : (s.home.l2ResponseFire i.port ∧ s.home.requestIsWrite ∧
        i.port.l2RespErrorI = false ∧ s.home.requestLineAddr = line ∧
        (s.step i).l2 line = mergeLine (s.l2 line) s.home.wdataQ s.home.wstrbQ) ∨
      ((s.home.l2ResponseFire i.port → s.home.requestIsWrite →
          i.port.l2RespErrorI = false → s.home.requestLineAddr ≠ line) ∧
        (s.step i).l2 line = s.l2 line) := by
  simp only [step, nextL2]
  split
  · rename_i h
    simp only [and_eq_true, beq_iff_eq, not_eq_true'] at h
    exact .inl ⟨h.1.1.1, h.1.1.2, h.1.2, h.2, rfl⟩
  · rename_i h
    simp only [and_eq_true, beq_iff_eq, not_eq_true', not_and] at h
    exact .inr ⟨fun a b c => h ⟨⟨a, b⟩, c⟩, rfl⟩

theorem isWrite_of_op (hop : s.home.reqOpQ = icxOpWrite) : s.home.requestIsWrite := by
  simp [requestIsWrite, hop]

/-- A store that L2 has performed was waiting for its response, or is performed
in this very cycle. -/
theorem performed_from (hinv : SystemInv s) {h : Fin p.numHarts}
    {line : BitVec 64} (hp : (s.step i).Performed h line) :
    s.Performed h line ∨ (s.home.l2ResponseFire i.port ∧ s.home.reqOpQ = icxOpWrite ∧
        i.port.l2RespErrorI = false ∧ s.home.requestLineAddr = line) := by
  have hcases := resp_entered hp.state
  have hidle : s.home.stateQ ≠ .idle := by
    intro hidle
    rcases hcases with h | h | h | h | h
    · simp [hp.noError] at h
    · simp [hidle] at h
    · simp [l2ResponseFire_l2Resp h] at hidle
    · simp [hidle] at h
    · simp [hidle] at h
  have hsame : SameRequest s.home (s.step i).home := sameRequest_step hidle i.port
  have hop := hp.op
  have hline := hp.line
  have hhart := hp.hart
  rw [hsame.op] at hop
  rw [hsame.requestLineAddr] at hline
  rw [hsame.requestHartMask] at hhart
  rcases hcases with h | ⟨-, h⟩ | h | h | h
  · simp [hp.noError] at h
  · simp [hop, icxOpSc, icxOpWrite] at h
  · refine .inr ⟨h, hop, ?_, hline⟩
    have hok := hp.noError
    rw [(l2Response_regs h).1, Bool.or_eq_false_iff] at hok
    exact hok.1
  · have hph := hinv.home.phase
    simp only [PhaseInv, h] at hph
    simp [requestPrivateFill_of_isWrite (isWrite_of_op hop)] at hph
  · refine .inl ⟨h, hop, ?_, hhart, hline⟩
    rw [← (resp_regs (i := i) (.inr h)).1]
    exact hp.noError

/-- One cycle keeps the copies and L2 together. -/
theorem current_step (hinv : SystemInv s) (hl2 : s.l2Ok i)
    {h : Fin p.numHarts} {line : BitVec 64} {held : BitVec 512}
    (hcopy : (s.step i).copy h line = some held) :
    ((s.step i).Performed h line → (s.step i).l2 line =
          mergeLine held (s.step i).home.wdataQ (s.step i).home.wstrbQ) ∧
      (¬ (s.step i).Performed h line → (s.step i).l2 line = held) := by
  by_cases hrsp : s.home.stateQ = .resp
  · have hsame : SameRequest s.home (s.step i).home := sameRequest_step (by simp [hrsp]) i.port
    have hline := l2_kept (i := i) (by simp [hrsp] : s.home.stateQ ≠ .l2Resp) line
    have hwdata := wdata_kept (i := i) (by simp [hrsp] : s.home.stateQ ≠ .waitWdata)
    have hregs := resp_regs (i := i) (.inr hrsp)
    have hidle : s.home.responseFire i.port → ¬ (s.step i).Performed h line := by
      intro hfire hp
      have := hp.state
      simp [step, CoherentState.step, CoherentState.home, hrsp, hfire] at this
    rw [hline, hwdata.1, hwdata.2]
    rcases nextCopy_eq_some hcopy with ⟨hfills, rfl, rfl⟩ | ⟨-, -, hkept⟩
    · have ha := answered_of_fills hfills
      refine ⟨fun hp => absurd hp (hidle ha.fire), fun _ => ?_⟩
      refine (hinv.readReady (.inr hrsp) ?_ ha.noError).symm
      rcases ha.op with hop | hop <;>
        simp [requestPrivateFill, ha.cacheable, hop, ha.source, sourceOf]
    rcases hkept with ⟨hstores, rfl, before, hbef, rfl⟩ | ⟨hstores, hbef⟩
    · simp only [stores, and_eq_true, not_eq_true', beq_iff_eq] at hstores
      obtain ⟨⟨⟨hfire, hok⟩, hop⟩, hhart⟩ := hstores
      refine ⟨fun hp => absurd hp (hidle hfire), fun _ => ?_⟩
      exact hinv.performed h _ before hbef ⟨hrsp, hop, hok, hhart, rfl⟩
    have hiff : (s.step i).Performed h line ↔ s.Performed h line := by
      constructor
      · intro hp
        rcases performed_from hinv hp with hold | ⟨hfire, -⟩
        · exact hold
        · simp [l2ResponseFire_l2Resp hfire] at hrsp
      · rintro ⟨-, hop, hok, hhart, hl⟩
        have hnxt : (s.step i).home.stateQ = .resp := by
          by_contra hnxt
          have hfire : s.home.responseFire i.port := by
            by_contra hfire
            exact hnxt (by simp [step, CoherentState.step, CoherentState.home, hrsp, hfire])
          exact hstores (by simp [stores, hfire, hok, hop, hhart]) hl
        refine ⟨hnxt, ?_, ?_, ?_, ?_⟩
        · rwa [hsame.op]
        · rwa [hregs.1]
        · rwa [hsame.requestHartMask]
        · rwa [hsame.requestLineAddr]
    rw [hiff]
    exact ⟨hinv.performed h line held hbef, hinv.current h line held hbef⟩
  have hbef := copy_kept hrsp hcopy
  have hnot : ¬ s.Performed h line := fun hp => hrsp hp.state
  have hheld := hinv.current h line held hbef hnot
  rcases l2_step (s := s) (i := i) line with ⟨hfire, hwr, hok, hline, hmerge⟩ | ⟨hno, hkeep⟩
  · have hst := l2ResponseFire_l2Resp hfire
    have hsame : SameRequest s.home (s.step i).home := sameRequest_step (by simp [hst]) i.port
    have hmask := hinv.alone (.inr hst) hwr h (by simp [hline, hbef])
    have hop : s.home.reqOpQ = icxOpWrite := by
      simp only [requestIsWrite, or_eq_true, beq_iff_eq] at hwr
      refine hwr.resolve_right fun hsc => ?_
      have := hinv.scDropped (by simp [hst]) hsc h hmask
      simp [hline, hbef] at this
    have hidentity : s.home.l2ResponseIdentityError i.port = false := by
      simp only [l2Ok, hfire, Bool.not_true, Bool.false_or, and_eq_true, not_eq_true'] at hl2
      exact hl2.1
    have hp : (s.step i).Performed h line := by
      refine ⟨?_, ?_, ?_, ?_, ?_⟩
      · have hfill := requestPrivateFill_of_isWrite hwr
        simp [step, CoherentState.step, CoherentState.home, hst, hfire, l2Response, hfill]
      · rwa [hsame.op]
      · rw [(l2Response_regs hfire).1, hok, hidentity]
        rfl
      · rwa [hsame.requestHartMask]
      · rwa [hsame.requestLineAddr]
    have hwdata := wdata_kept (i := i) (by simp [hst] : s.home.stateQ ≠ .waitWdata)
    refine ⟨fun _ => ?_, fun hn => absurd hp hn⟩
    rw [hmerge, hheld, hwdata.1, hwdata.2]
  · refine ⟨fun hp => ?_, fun _ => hkeep.trans hheld⟩
    rcases performed_from hinv hp with hold | ⟨hfire, hop, hok, hline⟩
    · exact absurd hold hnot
    · exact absurd hline (hno hfire (isWrite_of_op hop) hok)

theorem SystemInv.step (hinv : SystemInv s) (hl2 : s.l2Ok i)
    (hsafe : s.copiesSafe i) : SystemInv (s.step i) where
  home := by
    refine hinv.home.step (copiesStep hinv) ?_
    simp only [copiesSafe, and_eq_true] at hsafe
    exact hsafe.1
  alone := alone_step hinv hsafe
  scDropped := scDropped_step hinv
  readReady := readReady_step hinv hl2
  performed := fun _ _ _ hcopy => (current_step hinv hl2 hcopy).1
  current := fun _ _ _ hcopy => (current_step hinv hl2 hcopy).2

end Step

theorem SystemInv.coherent {s : SystemState p} (hinv : SystemInv s) : s.Coherent where
  exclusive := by
    rintro ⟨hst, hexcl⟩ h hcopy
    have hph : s.home.requestExclusive → OnlyRequester s.held s.home := by
      have hph := hinv.home.phase
      rcases hst with hs | hs | hs <;> simp only [PhaseInv, hs] at hph <;>
        exact hph.2
    exact hph hexcl h ⟨rfl, Option.isSome_iff_ne_none.mpr hcopy⟩
  current := by
    intro h line held hcopy
    by_cases hp : s.Performed h line
    · exact .inr ⟨by simp [hp.state], hp.op, hp.hart, hp.line⟩
    · exact .inl (hinv.current h line held hcopy hp).symm

end SystemState

/-- The composed system as a circuit. -/
def coherentSystem (p : CoherentParams) : Sync.Circuit (SystemState p) (SystemInput p) where
  Init := fun s => (coherentHome p).Init s.home ∧ ∀ h line, s.copy h line = none
  step := SystemState.step

namespace SystemState

open CoherentState

variable {p : CoherentParams}

/-- In every run in which L2 keeps its promise and no branch leaves a copy
behind, the copies are coherent. -/
theorem coherent_of_safe
    {past : Sync.Past (SystemState p) (SystemInput p)} {s : SystemState p}
    (hrun : Sync.Run (coherentSystem p)
      (Sync.cycleEnv fun s i => (s.l2Ok i && s.copiesSafe i) = true) past s) : s.Coherent := by
  refine SystemInv.coherent (hrun.stateInvariant ?_ ?_)
  · rintro s ⟨⟨powerUp, hhome⟩, hcopy⟩
    have hheld : s.held = fun _ _ _ => False := by
      funext c line h
      simp [held, hcopy]
    refine ⟨?_, ?_, ?_, ?_, ?_, ?_⟩
    · rw [hheld, hhome]
      exact homeInv_reset powerUp
    all_goals simp [hhome, reset, hcopy]
  · intro past s i henv hinv
    simp only [Sync.cycleEnv, Bool.and_eq_true] at henv
    exact hinv.step henv.1 henv.2

/-- A power-up system with empty caches and a cleared L2. -/
def powerUpSystem (p : CoherentParams) : SystemState p where
  home := (powerUpZero p).reset
  copy := fun _ _ => none
  l2 := fun _ => 0

theorem powerUpSystem_init (p : CoherentParams) : (coherentSystem p).Init (powerUpSystem p) :=
  ⟨powerUpZero_init p, fun _ _ => rfl⟩

def demoSystemInputs (p : CoherentParams) (inputs : List (CoherentInput p)) :
    List (SystemInput p) :=
  (demoInputs p inputs).map fun port => ⟨port, fun _ _ => false⟩

def demoSystem (p : CoherentParams) (inputs : List (CoherentInput p)) : SystemState p :=
  (Sync.exec (coherentSystem p) [] (powerUpSystem p) (demoSystemInputs p inputs)).2

/-- Hart 0 stores to a line that hart 1 shares; hart 1 acknowledges its probe. -/
def storeOverShared : List (CoherentInput twoWayParams) :=
  sharedRead ++ command _ 0 icxOpWrite icxAttrCacheable 0x40 4 ++
    [{ promptInput _ 0 icxSourceDcache with probeRespValidI := fun h => h.val == 1 }] ++
    List.replicate 5 (promptInput _ 0 icxSourceDcache)

theorem coherent_of_safe_storeOverShared : (demoSystem _ storeOverShared).Coherent :=
  coherent_of_safe
    (Sync.exec_run_ok (demoSystemInputs _ storeOverShared)
      (.reset (powerUpSystem_init twoWayParams)) (by decide +kernel))

/-- With one way, hart 1's cacheable WRITE is presented to L2 while hart 0
still holds the line of an odd set. -/
def writeOverUnrecorded : List (CoherentInput oneWayParams) :=
  command _ 0 icxOpRead icxAttrCacheable 0x40 7 ++ command _ 1 icxOpWrite icxAttrCacheable 0x40 3

theorem coherent_fails :
    ¬ ∀ (p : CoherentParams) past s,
      Sync.Run (coherentSystem p) (Sync.cycleEnv fun s i => s.l2Ok i = true)
        past s → s.Coherent := by
  intro hcoherent
  have hexclusive := (hcoherent oneWayParams _ _
    (Sync.exec_run_ok (demoSystemInputs _ writeOverUnrecorded)
      (.reset (powerUpSystem_init oneWayParams)) (by decide +kernel))).exclusive
    ⟨by decide +kernel, by decide +kernel⟩ ⟨0, by decide⟩ (by decide +kernel)
  revert hexclusive
  decide +kernel

end SystemState

end OpenRV64
