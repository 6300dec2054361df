/-
The page-table walker implements the Sv39 walk over the tables that stand in memory since
the last invalidation.
-/
import OpenRV64.PtwBarrier

namespace OpenRV64

open PtwBackend PtwState PtwWalker
open Bool (and_eq_true toNat_false)

/-- The lines that hold tables, without those that give a bus error, and the verdicts on
the addresses of entries. -/
structure PtwTables where
  line : BitVec 64 → Option (BitVec 512)
  pmp : BitVec 64 → Bool

namespace PtwTables

variable (tables : PtwTables)

/-- An access to an entry. -/
def read (addr : Sv39.Addr) : Option Sv39.Pte :=
  if tables.pmp addr then (tables.line (icxLineAddr addr)).map (linePte · addr) else none

/-- The response carries a line of the tables. -/
def Answer (p : PtwParams) (i : PtwInput) (line : BitVec 64) : Prop :=
  icxRespIdentityError p i = false ∧
    match tables.line line with
    | some data => i.icxRespErrorI = false ∧ i.icxRespRdataI = data
    | none => i.icxRespErrorI = true

end PtwTables

namespace PtwLedger

/-- Surroundings in which the watchdog never bites, and in which the tables are those of
`world` from one invalidation to the next. -/
structure Serves (p : PtwParams) (world : ℕ → PtwTables) (t : PtwLedger) (i : PtwInput) : Prop where
  answers : t.Answers i
  timely : t.ptw.walkBackendTimeout p i = false
  check : t.ptw.pmpFire i = true →
    i.pmpAllowI = (world t.lastInvalidate).pmp t.ptw.walker.walkPteAddr
  read : t.ptw.icxRespFire i = true → ∀ x ∈ t.answered, x.kind = .read →
    t.lastInvalidate < x.issued → (world t.lastInvalidate).Answer p i x.line

/-- The entry that a response brought stands in the tables. -/
def Stands (tables : PtwTables) (f : PtwFetch) : Prop :=
  (tables.line (icxLineAddr f.addr)).map (linePte · f.addr) = some f.data

/-- What the walker has read since the last invalidation are the tables. -/
structure Served (world : ℕ → PtwTables) (t : PtwLedger) : Prop where
  barred : t.Barred
  drain : t.ptw.walker.icxTimeoutDrain = false
  issued : ∀ x ∈ t.pending, x.issued < t.now
  fetched : ∀ f ∈ t.fetched, ∀ issued, ReadAt f issued → issued < t.now ∧
    (t.lastInvalidate < issued → Stands (world t.lastInvalidate) f)
  checked : t.ptw.walker.phase = .walk → t.ptw.walker.backend ≠ .pmp →
    (world t.lastInvalidate).pmp t.ptw.walker.walkPteAddr = true
  uses : t.interrupted = false → ∀ u ∈ t.uses, u.outcome = (world t.lastInvalidate).read u.addr
  whole : t.interrupted = false → t.ptw.walker.phase ≠ .abort ∧
    (t.ptw.walker.phase = .resp → t.ptw.walker.resp.invalidated = false)

section Step

variable {p : PtwParams} {world : ℕ → PtwTables} {t : PtwLedger} {i : PtwInput}

theorem safeDrain_of_drain (hdr : t.ptw.walker.icxTimeoutDrain = false) : t.ptw.SafeDrain i := by
  intro _ h
  simp [hdr] at h

theorem drain_step (hx : t.ptw.Exclusive) (htimely : t.ptw.walkBackendTimeout p i = false)
    (hdr : t.ptw.walker.icxTimeoutDrain = false) :
    (t.ptw.walkerNext p i).icxTimeoutDrain = false := by
  cases hwalk : t.ptw.walking with
  | true =>
    rcases moves_of_walking (p := p) (i := i) hx hwalk with
      ⟨-, hdr', -, -⟩ | ⟨-, hdr', -, -, -⟩
    · simp [hdr', expires, htimely]
    · exact hdr'
  | false =>
    simp [(walkerNext_of_resting (p := p) (i := i) hwalk).2, hdr]

theorem issued_step (hiss : ∀ x ∈ t.pending, x.issued < t.now) :
    ∀ x ∈ t.pendingNext p i, x.issued < t.now + 1 := by
  intro x hx
  rcases issued_of_mem_pendingNext hx with ⟨y, hy, heq, -⟩ | ⟨-, rfl⟩
  · exact heq ▸ (hiss y hy).trans (Nat.lt_succ_self _)
  · exact Nat.lt_succ_self _

section

variable (h : t.Served world)

include h

/-- A response used as an entry brings an entry of the tables. -/
theorem fetchNow_stands (henv : t.Serves p world i)
    (hfetch : t.fetches p i) {issued : ℕ} (hread : ReadAt (t.fetchNow i) issued) :
    issued < t.now ∧ Stands (world t.lastInvalidate) (t.fetchNow i) := by
  simp only [fetches, PtwPhase.beq_eq_decide, and_eq_true, Bool.not_eq_true',
    decide_eq_true_eq] at hfetch
  obtain ⟨⟨⟨hph, hinval⟩, hfire⟩, herr⟩ := hfetch
  obtain ⟨x, hx, hkind, hline, rfl⟩ := hread
  have hmem : x ∈ t.pending := List.mem_of_head? hx
  refine ⟨h.issued x hmem, ?_⟩
  have hwaiting := (h.barred.walking hph).waiting x hmem
  obtain ⟨-, hans⟩ := henv.read hfire x hx hkind hwaiting
  simp only [walkPteError, hfire, Bool.true_and, Bool.or_eq_false_iff] at herr
  rw [hline] at hans
  cases hdata : (world t.lastInvalidate).line (icxLineAddr (t.fetchNow i).addr) with
  | none =>
    rw [hdata] at hans
    simp [herr.2.1] at hans
  | some data =>
    rw [hdata] at hans
    rw [Stands, hdata, Option.map_some, fetchNow, icxPteData, hans.2]

theorem fetched_step (henv : t.Serves p world i) :
    ∀ f ∈ ((ptwLedger p).step t i).fetched, ∀ issued, ReadAt f issued →
      issued < t.now + 1 ∧ (((ptwLedger p).step t i).lastInvalidate < issued →
        Stands (world ((ptwLedger p).step t i).lastInvalidate) f) := by
  intro f hf issued hread
  have hnow : issued < t.now ∧ (t.lastInvalidate < issued → Stands (world t.lastInvalidate) f) := by
    simp only [ptwLedger, fetchedNext] at hf
    split at hf
    · rename_i hfetch
      rcases List.mem_cons.mp hf with rfl | hf
      · obtain ⟨hiss, hstands⟩ := fetchNow_stands h henv hfetch hread
        exact ⟨hiss, fun _ => hstands⟩
      · exact h.fetched f hf issued hread
    · exact h.fetched f hf issued hread
  refine ⟨hnow.1.trans (Nat.lt_succ_self _), ?_⟩
  cases hinval : i.invalidateI with
  | true =>
    intro hlate
    simp only [ptwLedger, hinval, if_true] at hlate
    exact absurd hlate (Nat.not_lt.mpr hnow.1.le)
  | false => simpa [ptwLedger, hinval] using hnow.2

/-- A hit gives the entry that stands in the tables. -/
theorem hit_stands (hph : t.ptw.walker.phase = .walk)
    {way : ℕ} (hway : t.ptw.pteCacheHit p = some way) :
    ((world t.lastInvalidate).line (icxLineAddr t.ptw.walker.walkPteAddr)).map
      (linePte · t.ptw.walker.walkPteAddr) = some (t.ptw.pteCacheHitData p) := by
  obtain ⟨hval, htag⟩ := pteCacheHit_spec hway
  have hcached := h.barred.cache way (t.ptw.cacheSet p) hval
  obtain ⟨f, hf, hdata, hftag, ⟨ppn, vpn, haddr⟩, hread⟩ := hcached.sourced
  have hstands := (h.fetched f hf _ hread).2 hcached.issued
  have haddr' : f.addr = t.ptw.walker.walkPteAddr := by
    rw [htag, haddr, (h.barred.walking hph).addr] at hftag
    rw [haddr, (h.barred.walking hph).addr]
    exact entryAddr_eq_of_tag hftag
  rw [Stands, haddr', hdata] at hstands
  rw [hstands, pteCacheHitData, hway]

/-- The outcome that a walk goes by is that of the access to the tables. -/
theorem useNow_outcome (henv : t.Serves p world i)
    (hph : t.ptw.walker.phase = .walk) (hinval : i.invalidateI = false)
    (huse : t.usesNow p i) :
    (t.useNow p i).outcome = (world t.lastInvalidate).read t.ptw.walker.walkPteAddr := by
  have htimely := henv.timely
  have hx := h.barred.channel.exclusive
  cases hdenied : t.ptw.pmpDenied i with
  | true =>
    simp only [pmpDenied, and_eq_true, Bool.not_eq_true'] at hdenied
    have hpmp : (world t.lastInvalidate).pmp t.ptw.walker.walkPteAddr = false :=
      (henv.check hdenied.1).symm.trans hdenied.2
    simp [useNow, walkPteError, pmpDenied, hdenied, PtwTables.read, hpmp]
  | false =>
  cases hhit : t.ptw.pteCacheHitUse p i with
  | true =>
    have hfire := hhit
    simp only [pteCacheHitUse, and_eq_true, Option.isSome_iff_exists] at hfire
    obtain ⟨⟨hfire, hallow⟩, way, hway⟩ := hfire
    have hpmp : (world t.lastInvalidate).pmp t.ptw.walker.walkPteAddr :=
      (henv.check hfire).symm.trans hallow
    have hback : t.ptw.walker.backend = .pmp := by
      rw [pmpFire_of_walk hph] at hfire
      simp only [and_eq_true, beq_eq_decide, decide_eq_true_eq] at hfire
      exact hfire.1.1
    have hrsp : t.ptw.icxRespFire i = false := by
      simp [icxRespFire_of_walk hx hph, hback]
    have hstands := hit_stands h hph hway
    simp [useNow, htimely, walkPteError, hdenied, hrsp, walkPteData,
      hhit, PtwTables.read, hpmp, hstands]
  | false =>
    have hfire : t.ptw.icxRespFire i := by
      simpa [usesNow, hph, hinval, htimely, walkPteReady, hdenied, hhit] using huse
    have hback : t.ptw.walker.backend = .wait := by
      have hfire' := hfire
      rw [icxRespFire_of_walk hx hph] at hfire'
      simp only [and_eq_true, beq_eq_decide, decide_eq_true_eq] at hfire'
      exact hfire'.2
    obtain ⟨x, hpend, hkind, hline⟩ := pending_of_wait h.barred.channel hph hback
    have hwaiting := (h.barred.walking hph).waiting x (by simp [hpend])
    obtain ⟨hidentity, hans⟩ := henv.read hfire x (by simp [answered, hpend]) hkind hwaiting
    have hpmp := h.checked hph (by simp [hback])
    rw [hline] at hans
    cases hdata : (world t.lastInvalidate).line (icxLineAddr t.ptw.walker.walkPteAddr) with
    | none =>
      rw [hdata] at hans
      have herr : i.icxRespErrorI := hans
      simp [useNow, walkPteError, hfire, herr, PtwTables.read, hpmp, hdata]
    | some data =>
      rw [hdata] at hans
      obtain ⟨herr, hrdata⟩ := hans
      simp [useNow, htimely, walkPteError, hfire, hdenied, herr, hidentity,
        walkPteData, hhit, icxPteData, hrdata, PtwTables.read, hpmp, hdata]

/-- An access goes to the port only with the leave of the check. -/
theorem checked_step (henv : t.Serves p world i) (hwalk : (t.ptw.walkerNext p i).phase = .walk)
    (hback' : (t.ptw.walkerNext p i).backend ≠ .pmp) :
    i.invalidateI = false ∧ (world t.lastInvalidate).pmp (t.ptw.walkerNext p i).walkPteAddr := by
  have hx := h.barred.channel.exclusive
  have hinval : i.invalidateI = false := by
    refine eq_false_of_ne_true fun hinval => ?_
    exact absurd hwalk (walkerNext_of_invalidate hinval).1
  refine ⟨hinval, ?_⟩
  cases hwalking : t.ptw.walking with
  | false =>
    rcases (walkerNext_of_resting (p := p) (i := i) hwalking).1 with
      hph | hph | ⟨-, hback, -⟩
    · simp [hph] at hwalk
    · simp [hph] at hwalk
    · exact absurd hback hback'
  | true =>
    have hph : t.ptw.walker.phase = .walk := by
      rcases moves_of_walking (p := p) (i := i) hx hwalking with
        ⟨hph, -, -, -⟩ | ⟨⟨-, -, hph⟩ | ⟨hph, -⟩, -, -, -, -⟩
      · simp [hph] at hwalk
      · exact hph
      · simp [hph] at hwalk
    have hnxt : t.ptw.walkerNext p i = t.ptw.walkNext p i := by
      simp [walkerNext, hinval, hph]
    rw [hnxt] at hwalk hback' ⊢
    rcases walkNext_uses (p := p) hx hph hinval with
      ⟨huse, b, hstay⟩ | ⟨-, -, d, hflt⟩ | ⟨-, pte, -, htake⟩
    · have haddr : (t.ptw.walkNext p i).walkPteAddr = t.ptw.walker.walkPteAddr := by
        rw [hstay]
        rfl
      rw [haddr]
      by_cases hback : t.ptw.walker.backend = .pmp
      · rw [walkNext_pmp hx hph hback hinval] at hback'
        cases hrdy : i.pmpReadyI with
        | false => simp [hrdy, hback] at hback'
        | true =>
          have hfire : t.ptw.pmpFire i := by
            simp [pmpFire_of_walk hph, hback, hinval, hrdy]
          rw [← henv.check hfire]
          cases hallow : i.pmpAllowI with
          | true => rfl
          | false =>
            simp [usesNow, hph, hinval, walkPteReady, pmpDenied, hfire, hallow] at huse
      · exact h.checked hph hback
    · simp [hflt, setFaultResponse] at hwalk
    · rcases takeEntry_cases t.ptw.walker pte with ⟨r, htake'⟩ | ⟨-, htake'⟩
      · simp [htake, htake'] at hwalk
      · exact absurd (by simp [htake, htake']) hback'

theorem uses_step (henv : t.Serves p world i)
    (hwhole : ((ptwLedger p).step t i).interrupted = false) :
    ∀ u ∈ ((ptwLedger p).step t i).uses,
      u.outcome = (world ((ptwLedger p).step t i).lastInvalidate).read u.addr := by
  intro u hu
  cases hfire : t.ptw.reqFire i with
  | true => simp [ptwLedger, usesNext, hfire] at hu
  | false =>
    simp only [ptwLedger, hfire, Bool.not_false, Bool.true_and, Bool.or_eq_false_iff] at hwhole
    obtain ⟨hbef, hinval⟩ := hwhole
    have hlast : ((ptwLedger p).step t i).lastInvalidate = t.lastInvalidate := by
      simp [ptwLedger, hinval]
    rw [hlast]
    simp only [ptwLedger, usesNext, hfire, if_low] at hu
    split at hu
    · rename_i huse
      have hph : t.ptw.walker.phase = .walk := by
        simp only [usesNow, PtwPhase.beq_eq_decide, and_eq_true, decide_eq_true_eq] at huse
        exact huse.1.1
      rcases List.mem_append.mp hu with hu | hu
      · exact h.uses hbef u hu
      · rw [List.mem_singleton.mp hu]
        exact useNow_outcome h henv hph hinval huse
    · exact h.uses hbef u hu

end

theorem translate_not_flagged (q : PtwRequest) (read : ℕ → Sv39.Addr → Option Sv39.Pte) :
    (q.translate read).invalidated = false := by
  unfold PtwRequest.translate
  split
  · rfl
  · split
    · cases Sv39.walk read q.context q.rootPpn q.vaddr <;> rfl
    · rfl

theorem whole_step (h : t.Served world) (henv : t.Serves p world i)
    (hchan : Channel ((ptwLedger p).step t i))
    (hwhole : ((ptwLedger p).step t i).interrupted = false) :
    (t.ptw.walkerNext p i).phase ≠ .abort ∧ ((t.ptw.walkerNext p i).phase = .resp →
      (t.ptw.walkerNext p i).resp.invalidated = false) := by
  have hquiet : i.invalidateI = false ∧ (t.interrupted = false ∨ t.ptw.walker.phase = .idle) := by
    cases hfire : t.ptw.reqFire i with
    | true =>
      obtain ⟨-, -, -, hinval, hph⟩ := quiet_of_reqFire hfire
      exact ⟨hinval, .inr hph⟩
    | false =>
      simp only [ptwLedger, hfire, Bool.not_false, Bool.true_and, Bool.or_eq_false_iff] at hwhole
      exact ⟨hwhole.2, .inl hwhole.1⟩
  obtain ⟨hinval, hopen⟩ := hquiet
  have hnoabort : t.ptw.walker.phase ≠ .abort := by
    rcases hopen with hbef | hph
    · exact (h.whole hbef).1
    · simp [hph]
  constructor
  · cases hwalk : t.ptw.walking with
    | true =>
      have hph : t.ptw.walker.phase = .walk := by
        simpa [walking, hnoabort] using hwalk
      have hnxt : t.ptw.walkerNext p i = t.ptw.walkNext p i := by
        simp [walkerNext, hinval, hph]
      rw [hnxt]
      rcases walkNext_uses (p := p) h.barred.channel.exclusive hph hinval with
        ⟨-, b, hstay⟩ | ⟨-, -, d, hflt⟩ | ⟨-, pte, -, htake⟩
      · simp [hstay, hph]
      · simp [hflt, setFaultResponse]
      · rcases takeEntry_cases t.ptw.walker pte with ⟨r, htake'⟩ | ⟨-, htake'⟩
        · simp [htake, htake']
        · simp [htake, htake', hph]
    | false =>
      rcases (walkerNext_of_resting (p := p) (i := i) hwalk).1 with
        hph | hph | ⟨hph, -, -⟩ <;> simp [hph]
  · intro hrsp
    by_cases hph : t.ptw.walker.phase = .resp
    · rcases resp_step (p := p) hinval hph with hidle | ⟨-, hsame⟩
      · simp [hidle] at hrsp
      · rw [hsame]
        refine (h.whole (hopen.resolve_right ?_)).2 hph
        simp [hph]
    have hcases : t.ptw.walker.phase = .idle ∨ t.ptw.walker.phase = .walk := by
      cases hp : t.ptw.walker.phase <;> simp_all
    have hdelivered := (walker_step_of_open h.barred hchan hinval hcases).2 hrsp
    have hagrees : Agrees (fun _ => (world ((ptwLedger p).step t i).lastInvalidate).read)
        ((ptwLedger p).step t i).uses := fun u hu => (uses_step h henv hwhole u hu).symm
    change ((ptwLedger p).step t i).ptw.walker.resp.invalidated = false
    rw [hdelivered.result _ hagrees]
    exact translate_not_flagged _ _

theorem Served.step (h : t.Served world) (henv : t.Serves p world i) :
    Served world ((ptwLedger p).step t i) := by
  have hsafe : t.ptw.SafeDrain i := safeDrain_of_drain h.drain
  have hchan := h.barred.channel.step (p := p) hsafe
  refine ⟨h.barred.step hsafe, drain_step h.barred.channel.exclusive henv.timely h.drain,
    issued_step h.issued, fetched_step h henv, ?_, uses_step h henv, whole_step h henv hchan⟩
  intro hwalk hback
  obtain ⟨hinval, hpmp⟩ := checked_step h henv hwalk hback
  have hlast : ((ptwLedger p).step t i).lastInvalidate = t.lastInvalidate := by
    simp [ptwLedger, hinval]
  rw [hlast]
  exact hpmp

theorem served_init (hinit : (ptwLedger p).Init t) : t.Served world := by
  have hbarred := barred_init hinit
  obtain ⟨⟨powerUp, hptw⟩, -, -, hpend, -, -, -, huses, hfetched, -⟩ := hinit
  refine ⟨hbarred, ?_, ?_, ?_, ?_, ?_, ?_⟩
  · simp [hptw, reset]
  · simp [hpend]
  · simp [hfetched]
  · simp [hptw, reset]
  · simp [huses]
  · simp [hptw, reset]

theorem served_of_run {past : Sync.Past PtwLedger PtwInput}
    (hrun : Sync.Run (ptwLedger p) (Sync.cycleEnv fun t i => Serves p world t i) past t) :
    t.Served world :=
  hrun.stateInvariant (fun _ => served_init) fun _ _ _ henv h => h.step henv

end Step

section Reads

variable {p : PtwParams} {world : ℕ → PtwTables} {t : PtwLedger} {i : PtwInput}

def portLeft : PtwBackend → ℕ
  | .wait => 0
  | _ => 1

/-- The reads that a walk may still ask for. -/
def readsLeft (w : PtwWalker) : ℕ :=
  match w.phase with
  | .walk => w.level + portLeft w.backend
  | .abort => portLeft w.backend
  | _ => 0

/-- A walk asks for at most one read of each level. -/
structure FewReads (t : PtwLedger) : Prop where
  channel : t.Channel
  reads : t.ptw.walker.phase ≠ .idle → t.reads + readsLeft t.ptw.walker ≤ 3

def sendsRead (s : PtwState) (i : PtwInput) : Bool := s.walkIcxReqValid && i.icxReqReadyI

theorem sendsRead_of_walking {s : PtwState} (hwalk : s.walking) :
    sendsRead s i = (s.walker.backend == .send && i.icxReqReadyI) := by
  simp [sendsRead, walkIcxReqValid, hwalk]

theorem readsLeft_takeEntry {w : PtwWalker} (hph : w.phase = .walk) (pte : BitVec 64) :
    readsLeft (w.takeEntry pte) ≤ readsLeft w := by
  rcases takeEntry_cases w pte with ⟨r, htake⟩ | ⟨hlvl, htake⟩
  · simp [htake, readsLeft]
  · simp only [htake, readsLeft, hph, portLeft]
    omega

theorem readsLeft_walkNext {s : PtwState} (hx : s.Exclusive)
    (hph : s.walker.phase = .walk) (hinval : i.invalidateI = false) :
    (sendsRead s i).toNat + readsLeft (s.walkNext p i) ≤ readsLeft s.walker := by
  have hwalk : s.walking := by simp [walking, hph]
  have htake := readsLeft_takeEntry hph
  have hflt : ∀ (w : PtwWalker) a b, readsLeft (w.setFaultResponse a b) = 0 := fun _ _ _ => rfl
  rw [sendsRead_of_walking hwalk]
  cases hback : s.walker.backend with
  | pmp =>
    rw [walkNext_pmp hx hph hback hinval]
    simp only [reduceCtorEq, beq_eq_decide, decide_false, Bool.false_and, toNat_false, Nat.zero_add]
    split
    · exact le_refl _
    split
    · simp [hflt]
    · split
      · exact htake _
      · simp [readsLeft, hph, hback, portLeft]
  | send =>
    rw [walkNext_send hx hph hback]
    cases hrdy : i.icxReqReadyI with
    | true =>
      simp only [readsLeft, hph, hback, portLeft, if_true,
        beq_eq_decide, decide_true, Bool.and_true, Bool.toNat_true]
      omega
    | false =>
      simp only [Bool.and_false, toNat_false, Nat.zero_add, if_low]
      split
      · simp [hflt]
      · exact le_refl _
  | wait =>
    rw [walkNext_wait hx hph hback]
    simp only [reduceCtorEq, beq_eq_decide, decide_false, Bool.false_and, toNat_false, Nat.zero_add]
    split
    · split
      · simp [hflt]
      · exact htake _
    · split
      · simp [hflt]
      · exact le_refl _

theorem readsLeft_invalidated {s : PtwState} (hph : s.walker.phase = .walk) :
    (sendsRead s i).toNat + readsLeft (s.walkerInvalidated i) ≤ readsLeft s.walker := by
  have hwalk : s.walking := by simp [walking, hph]
  have hreq := icxReqFire_of_walk (i := i) hph
  rw [sendsRead_of_walking hwalk]
  cases hback : s.walker.backend with
  | pmp =>
    simp [walkerInvalidated, hph, hback, setInvalidatedResponse, readsLeft]
  | send =>
    cases hrdy : i.icxReqReadyI <;>
      simp [walkerInvalidated, hph, hback, readsLeft, portLeft, hreq, hrdy]
  | wait =>
    cases hfire : s.icxRespFire i <;>
      simp [walkerInvalidated, hph, hback, setInvalidatedResponse,
        readsLeft, portLeft, hfire, drained]

theorem readsLeft_abort {s : PtwState} (hx : s.Exclusive) (hph : s.walker.phase = .abort) :
    (sendsRead s i).toNat + readsLeft (s.walkerNext p i) ≤ readsLeft s.walker := by
  have hwalk : s.walking := by simp [walking, hph]
  have hreq := icxReqFire_of_abort (i := i) hph
  have hrsp := icxRespFire_of_abort (i := i) hx hph
  rw [walkerNext_of_abort hx hph, sendsRead_of_walking hwalk, ← hreq]
  cases hfire : s.icxReqFire i with
  | true =>
    have hback : s.walker.backend = .send := by
      rw [hreq] at hfire
      simp only [and_eq_true, beq_eq_decide, decide_eq_true_eq] at hfire
      exact hfire.1
    have htimely : s.walkBackendTimeout p i = false := by
      apply timeout_of_progress
      simp [walkBackendProgress, hback, hfire]
    simp [htimely, readsLeft, hph, hback, portLeft]
  | false =>
    simp only [toNat_false, Nat.zero_add, if_low]
    split
    · simp [readsLeft, setInvalidatedResponse]
    · split
      · simp [readsLeft, setInvalidatedResponse]
      · exact le_refl _

theorem FewReads.step (h : t.FewReads) (hsafe : t.ptw.SafeDrain i) :
    FewReads ((ptwLedger p).step t i) := by
  refine ⟨h.channel.step hsafe, fun hph => ?_⟩
  change (if t.ptw.reqFire i then 0 else t.reads + (sendsRead t.ptw i).toNat) +
    readsLeft (t.ptw.walkerNext p i) ≤ 3
  cases hwalking : t.ptw.walking with
  | true =>
    have hopen : t.ptw.walker.phase ≠ .idle := by
      intro hidle
      simp [walking, hidle] at hwalking
    have hreads := h.reads hopen
    rw [reqFire_of_walking hwalking, if_low]
    have hleft : (sendsRead t.ptw i).toNat + readsLeft (t.ptw.walkerNext p i) ≤
        readsLeft t.ptw.walker := by
      simp only [walking, PtwPhase.beq_eq_decide, Bool.or_eq_true, decide_eq_true_eq] at hwalking
      rcases hwalking with hwalk | habort
      · cases hinval : i.invalidateI with
        | true =>
          have hnxt : t.ptw.walkerNext p i = t.ptw.walkerInvalidated i := by
            simp [walkerNext, hinval]
          rw [hnxt]
          exact readsLeft_invalidated hwalk
        | false =>
          have hnxt : t.ptw.walkerNext p i = t.ptw.walkNext p i := by
            simp [walkerNext, hinval, hwalk]
          rw [hnxt]
          exact readsLeft_walkNext h.channel.exclusive hwalk hinval
      · exact readsLeft_abort h.channel.exclusive habort
    omega
  | false =>
    have hnone : sendsRead t.ptw i = false := by
      simp [sendsRead, walkIcxReqValid, hwalking]
    rcases phase_of_resting hwalking with hidle | hrsp
    · have hfire : t.ptw.reqFire i := by
        cases hfire : t.ptw.reqFire i with
        | true => rfl
        | false => exact absurd ((phase_step_of_idle hidle).mpr hfire) hph
      obtain ⟨-, -, -, hinval, -⟩ := quiet_of_reqFire hfire
      have hnxt : t.ptw.walkerNext p i = t.ptw.accept i := by
        simp [walkerNext, hinval, hidle, hfire]
      rw [hfire, if_pos rfl, hnxt]
      unfold accept
      split
      · simp [readsLeft]
      · split
        · simp [readsLeft, setFaultResponse]
        · simp [readsLeft, portLeft]
    have hreads := h.reads (by simp [hrsp])
    have hreq : t.ptw.reqFire i = false := reqFire_of_phase (by simp [hrsp])
    have hafter : readsLeft (t.ptw.walkerNext p i) = 0 := by
      rcases (walkerNext_of_resting (p := p) (i := i) hwalking).1 with
        hph' | hph' | ⟨-, -, hfire⟩
      · simp [readsLeft, hph']
      · simp [readsLeft, hph']
      · simp [hreq] at hfire
    rw [hreq, if_low, hnone, hafter]
    simp only [toNat_false]
    omega

theorem fewReads_init (hinit : (ptwLedger p).Init t) : t.FewReads := by
  refine ⟨channel_init hinit, ?_⟩
  obtain ⟨⟨powerUp, hptw⟩, -⟩ := hinit
  simp [hptw, reset]

end Reads

/-- A response without an invalidation since its acceptance is the translation by the
tables, after at most three reads. -/
structure Translates (world : ℕ → PtwTables) (t : PtwLedger) : Prop where
  result : t.ptw.walker.resp = t.request.translate fun _ => (world t.lastInvalidate).read
  reads : t.reads ≤ 3

theorem translates_of_served {world : ℕ → PtwTables} {t : PtwLedger} {i : PtwInput}
    (h : t.Served world) (hfew : t.FewReads) (hfire : t.ptw.respFire i)
    (hwhole : t.interrupted = false) : Translates world t := by
  have hph : t.ptw.walker.phase = .resp := by
    simp only [respFire, respValidO, PtwPhase.beq_eq_decide,
      and_eq_true, decide_eq_true_eq] at hfire
    exact hfire.1.1
  have hflag := (h.whole hwhole).2 hph
  refine ⟨?_, ?_⟩
  · exact (h.barred.answered hph hflag).result _ fun u hu => (h.uses hwhole u hu).symm
  · have hreads := hfew.reads (by simp [hph])
    omega

/-- The walker implements the translation: every response that no invalidation has
interrupted is that of the tables, whatever the cache holds and however long the ports
take, and every accepted request gets exactly one response. -/
theorem translates_of_serves {p : PtwParams} {world : ℕ → PtwTables}
    (b : Sync.Behaviour (ptwLedger p) (Sync.cycleEnv fun t i => Serves p world t i)) :
    (∀ n, (b.state n).ptw.respFire (b.input n) = true → (b.state n).interrupted = false →
        Translates world (b.state n)) ∧ (Fair b → ∀ n, (b.state n).ptw.reqFire (b.input n) = true →
        ∃! m, Responds b n m) := by
  have hserved : ∀ n, (b.state n).Served world := fun n => served_of_run (b.run n)
  have hsafe : ∀ n, (b.state n).ptw.SafeDrain (b.input n) := fun n =>
    safeDrain_of_drain (hserved n).drain
  have hkept : ∀ n, (b.state n).FewReads ∧ (b.state n).Counted := by
    intro n
    induction n with
    | zero => exact ⟨fewReads_init b.init, counted_init b.init⟩
    | succ n ih =>
      rw [b.next n]
      exact ⟨ih.1.step (hsafe n), ih.2.step (hsafe n)⟩
  exact ⟨fun n hfire hwhole => translates_of_served (hserved n) (hkept n).1 hfire hwhole,
    fun hfair _ hfire => exactly_one_response b hfair (fun m => (hkept m).2) hfire⟩

section Witness

/-- Two sets of two ways, and no watchdog. -/
def cachedPtw : PtwParams where
  pteCacheEntries := 4
  pteCacheWays := 2
  icxTimeoutCycles := 0
  hartId := 0
  txnId := 0
  ways_pos := Nat.two_pos
  geometry _ := ⟨⟨1, rfl⟩, rfl, ⟨1, rfl⟩⟩

/-- Pointers from the root through two levels to a page, each the first entry of its
line. -/
def chain : PtwTables where
  line addr :=
    if addr = 0 then some 0x401
    else if addr = 0x1000 then some 0x801
    else if addr = 0x2000 then some 0xccf
    else none
  pmp _ := true

instance decidableAnswer (tables : PtwTables) (p : PtwParams) (i : PtwInput)
    (line : BitVec 64) : Decidable (tables.Answer p i line) := by
  unfold PtwTables.Answer
  cases tables.line line <;> exact inferInstanceAs (Decidable (_ ∧ _))

instance decidableServes (p : PtwParams) (world : ℕ → PtwTables) (t : PtwLedger)
    (i : PtwInput) : Decidable (Serves p world t i) :=
  decidable_of_iff (t.Answers i ∧ t.ptw.walkBackendTimeout p i = false ∧
      (t.ptw.pmpFire i = true →
        i.pmpAllowI = (world t.lastInvalidate).pmp t.ptw.walker.walkPteAddr) ∧
      (t.ptw.icxRespFire i = true → ∀ x ∈ t.answered, x.kind = .read →
        t.lastInvalidate < x.issued → (world t.lastInvalidate).Answer p i x.line))
    ⟨fun h => ⟨h.1, h.2.1, h.2.2.1, h.2.2.2⟩, fun h => ⟨h.answers, h.timely, h.check, h.read⟩⟩

def allowed : PtwInput := { calmPtw with pmpReadyI := true, pmpAllowI := true }

def sentPtw : PtwInput := { calmPtw with icxReqReadyI := true }

def lineOf (data : BitVec 512) : PtwInput := { answeredPtw with icxRespRdataI := data }

/-- A walk that reads three entries, and the same walk with two of them in the cache. -/
def twoWalks : List PtwInput :=
  [{ calmPtw with reqValidI := true }, allowed, sentPtw, lineOf 0x401, allowed, sentPtw,
    lineOf 0x801, allowed, sentPtw, lineOf 0xccf, { calmPtw with respReadyI := true },
    { calmPtw with reqValidI := true }, allowed, allowed, allowed, sentPtw, lineOf 0xccf,
    { calmPtw with respReadyI := true }]

theorem serves_calm (t : PtwLedger) : Serves cachedPtw (fun _ => chain) t calmPtw :=
  ⟨(answersSafely_calm t).answers, by simp [walkBackendTimeout, cachedPtw],
    by simp [pmpFire, calmPtw], by simp [icxRespFire, calmPtw]⟩

def cachedBehaviour : Sync.Behaviour (ptwLedger cachedPtw)
    (Sync.cycleEnv fun t i => Serves cachedPtw (fun _ => chain) t i) :=
  .ofInputs (fun k => twoWalks.getD k calmPtw)
    ⟨⟨_, rfl⟩, rfl, rfl, rfl, rfl, rfl, rfl, rfl, rfl, rfl⟩
    (Sync.Behaviour.statesFrom_ok (s := emptyPtw) serves_calm (by decide +kernel))

theorem translates_of_serves_cached :
    Translates (fun _ => chain) (cachedBehaviour.state 17) ∧
      ∃! m, Responds cachedBehaviour 11 m := by
  refine ⟨(translates_of_serves cachedBehaviour).1 17 (by decide +kernel)
    (by decide +kernel), (translates_of_serves cachedBehaviour).2 ?_ 11 (by decide +kernel)⟩
  apply fair_of_rests (n := 18)
  · intro m hm
    simp [cachedBehaviour, Sync.Behaviour.ofInputs, List.getElem?_eq_none (l := twoWalks) hm]
  · exact ⟨by decide +kernel, by decide +kernel, by decide +kernel⟩

end Witness

end PtwLedger

end OpenRV64
