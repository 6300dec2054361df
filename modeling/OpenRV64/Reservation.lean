/-
LR/SC atomicity at the coherence home: an SC succeeds only under a reservation
that nothing has broken since its LR, and a failed SC never reaches L2.
-/
import OpenRV64.DirectorySound

namespace OpenRV64

open Sync
open Bool (and_eq_true)
open HartVec (any)

namespace CoherentState

variable {p : CoherentParams}

/-! ## The events of a reservation -/

/-- L2 answers an LR of hart `h` to `line` without error in this cycle. -/
structure LrGranted (line : BitVec 64) (h : Fin p.numHarts)
    (s : CoherentState p) (i : CoherentInput p) : Prop where
  fire : s.l2ResponseFire i = true
  noError : (i.l2RespErrorI || s.l2ResponseIdentityError i) = false
  op : s.reqOpQ = icxOpLr
  hart : s.requestHartMask h = true
  line : s.requestLineAddr = line

/-- An LR of hart `h` to `line` is answered without error in this cycle. -/
structure LrAnswered (line : BitVec 64) (h : Fin p.numHarts)
    (s : CoherentState p) (i : CoherentInput p) : Prop where
  fire : s.responseFire i = true
  noError : s.respErrorQ = false
  op : s.reqOpQ = icxOpLr
  hart : s.requestHartMask h = true
  line : s.requestLineAddr = line

/-- Hart `h` issues an SC in this cycle. -/
structure ScIssued (h : Fin p.numHarts) (s : CoherentState p)
    (i : CoherentInput p) : Prop where
  fire : s.requestFire i = true
  op : i.reqOpI = icxOpSc
  hart : i.reqHartIdI = p.hartId h

/-- A WRITE or a successful SC to `line` is forwarded to L2 in this cycle. -/
structure WriteForwarded (line : BitVec 64) (s : CoherentState p)
    (i : CoherentInput p) : Prop where
  fire : s.l2RequestFire i = true
  write : s.requestIsWrite = true
  line : s.requestLineAddr = line

/-- What must not happen between an LR of hart `h` to `line` and its SC. -/
def ReservationBroken (line : BitVec 64) (h : Fin p.numHarts)
    (s : CoherentState p) (i : CoherentInput p) : Prop :=
  ScIssued h s i ∨ WriteForwarded line s i

/-- An LR of hart `h` to `line` was granted by L2 and answered, and nothing has
broken its reservation since. -/
def Reserved (line : BitVec 64) (h : Fin p.numHarts)
    (past : Past (CoherentState p) (CoherentInput p)) : Prop :=
  Since (LrGranted line h) (ReservationBroken line h) past ∧
    Since (LrAnswered line h) (ReservationBroken line h) past

/-- A command is accepted in this cycle. -/
def Accepted (s : CoherentState p) (i : CoherentInput p) : Prop := s.requestFire i = true

/-- Every SC that is answered with success had its reservation when it was
issued, and every SC that is answered without success and without error was
never presented to L2. -/
structure ScAtomic (past : Past (CoherentState p) (CoherentInput p))
    (s : CoherentState p) : Prop where
  success : s.stateQ = .resp → s.reqOpQ = icxOpSc → s.respScSuccessQ = true →
    ∀ h, s.requestHartMask h = true → AtLast Accepted (Reserved s.requestLineAddr h) past
  failure : s.stateQ = .resp → s.reqOpQ = icxOpSc → s.respScSuccessQ = false →
    s.respErrorQ = false → Since Accepted (fun s _ => s.l2ReqValidO = true) past

/-- Hart `h` holds a reservation of `line`. -/
def Holding (s : CoherentState p) (line : BitVec 64) (h : Fin p.numHarts) : Bool :=
  s.reservationValidQ h && s.reservationLineQ h == line

/-- The branches that leave a broken reservation standing are not taken: an
uncacheable write reaches L2 only where nobody holds a reservation of its line,
and an SC is rejected only where its hart holds none. -/
def reservationSafe (s : CoherentState p) (i : CoherentInput p) : Bool :=
  !(s.stateQ == .l2Req && s.requestIsWrite && !s.requestCacheable &&
      HartVec.any (s.Holding s.requestLineAddr)) && !(s.wdataFire i && s.reqOpQ == icxOpSc &&
      (s.commandErrorQ || s.wdataProtocolError i) &&
      HartVec.any fun h => s.requestHartMask h && s.reservationValidQ h)

/-! ## The invariant -/

/-- An SC of hart `h` was accepted and the directory has not answered it. -/
def ScPending (s : CoherentState p) (h : Fin p.numHarts) : Prop :=
  (s.stateQ = .waitWdata ∨ s.stateQ = .dirLookup ∨ s.stateQ = .dirWait) ∧
    s.reqOpQ = icxOpSc ∧ s.requestHartMask h = true

/-- The LR that set the reservation is still waiting for its answer. -/
def LrReturning (s : CoherentState p) (line : BitVec 64) (h : Fin p.numHarts) : Prop :=
  (s.stateQ = .dirRecord ∨ s.stateQ = .resp) ∧ s.respErrorQ = false ∧
    s.reqOpQ = icxOpLr ∧ s.requestHartMask h = true ∧ s.requestLineAddr = line

/-- The states between the directory's answer and the L2 request. -/
def toL2 : HomeState → Bool
  | .evictProbeStart | .evictProbeWait | .dirAllocate | .writeProbeStart
  | .writeProbeWait | .dirClear | .l2Req => true
  | _ => false

/-- The states of a transaction the directory has not answered. -/
def beforeLookup : HomeState → Bool
  | .waitWdata | .dirLookup | .dirWait => true
  | _ => false

/-- The states between the directory's answer and the response. -/
def atL2 : HomeState → Bool
  | .l2Wdata | .l2Resp | .dirRecord => true
  | state => toL2 state

structure ReservationInv
    (past : Past (CoherentState p) (CoherentInput p))
    (s : CoherentState p) : Prop where
  pending : ∀ line h, s.Holding line h = true → s.ScPending h →
    AtLast Accepted (Reserved line h) past
  granted : ∀ line h, s.Holding line h = true → ¬ s.ScPending h →
    Since (LrGranted line h) (ReservationBroken line h) past
  answered : ∀ line h, s.Holding line h = true → ¬ s.ScPending h →
    Since (LrAnswered line h) (ReservationBroken line h) past ∨ s.LrReturning line h
  cleared : toL2 s.stateQ = true → s.requestCoherentWrite = true →
    ∀ h, s.Holding s.requestLineAddr h = false
  early : beforeLookup s.stateQ = true → s.respScSuccessQ = false
  success : s.stateQ ≠ .idle → s.reqOpQ = icxOpSc → s.respScSuccessQ = true →
    ∀ h, s.requestHartMask h = true → AtLast Accepted (Reserved s.requestLineAddr h) past
  succeeding : atL2 s.stateQ = true → s.reqOpQ = icxOpSc → s.respScSuccessQ = true
  unsent : (beforeLookup s.stateQ = true ∨
      (s.stateQ = .resp ∧ s.reqOpQ = icxOpSc ∧ s.respScSuccessQ = false ∧ s.respErrorQ = false)) →
    Since Accepted (fun s _ => s.l2ReqValidO = true) past

/-! ## One cycle -/

/-- The registers of LR/SC that most states leave alone. -/
structure SameReservation (s s' : CoherentState p) : Prop where
  valid : s'.reservationValidQ = s.reservationValidQ
  line : s'.reservationLineQ = s.reservationLineQ
  success : s'.respScSuccessQ = s.respScSuccessQ

theorem SameReservation.holding {s s' : CoherentState p}
    (hsame : SameReservation s s') (line : BitVec 64) (h : Fin p.numHarts) :
    s'.Holding line h = s.Holding line h := by
  rw [Holding, Holding, hsame.valid, hsame.line]

theorem sameReservation_step {s : CoherentState p} {i : CoherentInput p}
    (hidle : s.stateQ ≠ .idle) (hwait : s.stateQ ≠ .dirWait)
    (hrsp : s.stateQ ≠ .l2Resp) : SameReservation s (s.step i) := by
  have hhome : SameReservation s (s.home i) := by
    rw [home]
    cases hst : s.stateQ <;> simp only
    case idle => exact absurd hst hidle
    case dirWait => exact absurd hst hwait
    case l2Resp => exact absurd hst hrsp
    all_goals repeat' split
    all_goals exact ⟨rfl, rfl, rfl⟩
  exact ⟨hhome.valid, hhome.line, hhome.success⟩

section Step

variable {past : Past (CoherentState p) (CoherentInput p)}
  {s : CoherentState p} {i : CoherentInput p}

theorem accepted_idle (h : Accepted s i) : s.stateQ = .idle := by
  simp only [Accepted, requestFire, reqReadyO, and_eq_true, beq_iff_eq] at h
  exact h.2.1.1

theorem hartId_injective {h h' : Fin p.numHarts} (heq : p.hartId h = p.hartId h') : h = h' := by
  have hrng := p.hartId_ok
  have hlt := h.isLt
  have hlt' := h'.isLt
  rw [CoherentParams.hartId, CoherentParams.hartId, ← BitVec.toNat_inj,
    BitVec.toNat_ofNat, BitVec.toNat_ofNat] at heq
  exact Fin.ext (by omega)

section

variable (hinv : ReservationInv past s) (hsafe : reservationSafe s i) {line : BitVec 64}
  {h : Fin p.numHarts}

include hinv hsafe

/-- Nothing in a run that keeps the promise breaks a standing reservation
except an SC of its own hart. -/
theorem not_forwarded (hholding : s.Holding line h) : ¬ WriteForwarded line s i := by
  rintro ⟨hfire, hwr, hline⟩
  simp only [l2RequestFire, l2ReqValidO, and_eq_true, beq_iff_eq] at hfire
  subst hline
  by_cases hcach : s.requestCacheable
  · have hnone := hinv.cleared (by simp [toL2, hfire.1])
      (by simp [requestCoherentWrite, hcach, hwr]) h
    simp [hholding] at hnone
  · have hany : any (s.Holding s.requestLineAddr) := HartVec_any_of hholding
    simp [reservationSafe, hfire.1, hwr, hcach, hany] at hsafe

/-- A standing reservation in a cycle without an SC of its hart. -/
theorem standing_step (hiss : ¬ ScIssued h s i)
    (hholding : s.Holding line h) (hpend : ¬ s.ScPending h) :
    Since (LrGranted line h) (ReservationBroken line h) ((s, i) :: past) ∧
      (Since (LrAnswered line h) (ReservationBroken line h) ((s, i) :: past) ∨
        (s.LrReturning line h ∧ ¬ LrAnswered line h s i)) := by
  have hbroken : ¬ ReservationBroken line h s i := by
    rintro (hbroken | hbroken)
    · exact hiss hbroken
    · exact not_forwarded hinv hsafe hholding hbroken
  refine ⟨.inr ⟨hinv.granted line h hholding hpend, hbroken⟩, ?_⟩
  rcases hinv.answered line h hholding hpend with hsince | hreturning
  · exact .inl (.inr ⟨hsince, hbroken⟩)
  · by_cases hnow : LrAnswered line h s i
    · exact .inl (.inl hnow)
    · exact .inr ⟨hreturning, hnow⟩

end

/-- The part of the invariant that a busy home carries along whatever it does:
the reservation its SC had when it was accepted. -/
theorem atLast_step {P : Past (CoherentState p) (CoherentInput p) → Prop}
    (hidle : s.stateQ ≠ .idle) (h : AtLast Accepted P past) : AtLast Accepted P ((s, i) :: past) :=
  (atLast_of_not_event fun hacc => hidle (accepted_idle hacc)).mpr h

theorem unsent_step (hreq : s.stateQ ≠ .l2Req)
    (h : Since Accepted (fun s _ => s.l2ReqValidO) past) :
    Since Accepted (fun s _ => s.l2ReqValidO) ((s, i) :: past) :=
  .inr ⟨h, by simpa [l2ReqValidO] using hreq⟩

/-! ## Each state of the home -/

section

variable (hinv : ReservationInv past s) (hsafe : reservationSafe s i)
include hinv hsafe

theorem reservation_step_idle (hst : s.stateQ = .idle) :
    ReservationInv ((s, i) :: past) (s.step i) := by
  have hnotPending : ∀ h, ¬ s.ScPending h := by
    rintro h ⟨hs, -⟩
    simp [hst] at hs
  have hnotReturning : ∀ line h, ¬ s.LrReturning line h := by
    rintro line h ⟨hs, -⟩
    simp [hst] at hs
  by_cases hfire : s.requestFire i
  · have hregs : (s.step i).reservationValidQ = s.reservationValidQ ∧
        (s.step i).reservationLineQ = s.reservationLineQ ∧
        (s.step i).reqOpQ = i.reqOpI ∧ (s.step i).reqHartIdQ = i.reqHartIdI ∧
        (s.step i).respScSuccessQ = false := by
      simp [step, home, hst, hfire, acceptRequest]
    obtain ⟨hval, hline, hop, hid, hsuccess⟩ := hregs
    have hholding : ∀ line h, (s.step i).Holding line h = s.Holding line h := by
      intro line h
      rw [Holding, Holding, hval, hline]
    have hnxt : beforeLookup (s.step i).stateQ ∨
        ((s.step i).stateQ = .resp ∧ (s.step i).reqOpQ ≠ icxOpSc) := by
      rw [hop]
      simp only [step, home, hst, hfire, if_true, acceptRequest]
      by_cases hw : i.reqOpI = icxOpWrite ∨ i.reqOpI = icxOpSc
      · simp [hw, beforeLookup]
      · rw [if_neg hw]
        split
        · exact .inr ⟨rfl, fun h => hw (.inr h)⟩
        · exact .inl rfl
    have hpend : ∀ h, (s.step i).ScPending h ↔ ScIssued h s i := by
      intro h
      rw [ScPending, requestHartMask, hop, hid]
      constructor
      · rintro ⟨-, hsc, hmask⟩
        exact ⟨hfire, hsc, by simpa using hmask⟩
      · rintro ⟨-, hsc, hhart⟩
        refine ⟨.inl ?_, hsc, by simpa using hhart⟩
        simp [step, home, hst, hfire, acceptRequest, hsc]
    refine ⟨?_, ?_, ?_, ?_, ?_, ?_, ?_, ?_⟩
    · intro line h hh _
      rw [hholding] at hh
      refine (atLast_of_event (show Accepted s i from hfire)).mpr ⟨?_, ?_⟩
      · exact hinv.granted line h hh (hnotPending h)
      · exact (hinv.answered line h hh (hnotPending h)).resolve_right (hnotReturning line h)
    · intro line h hh hnp
      rw [hholding] at hh
      exact (standing_step hinv hsafe (fun hi => hnp ((hpend h).mpr hi)) hh (hnotPending h)).1
    · intro line h hh hnp
      rw [hholding] at hh
      refine (standing_step hinv hsafe (fun hi => hnp ((hpend h).mpr hi)) hh
        (hnotPending h)).2.imp_right ?_
      exact fun hr => absurd hr.1 (hnotReturning line h)
    · intro hto
      rcases hnxt with hn | ⟨hn, -⟩
      · exfalso
        revert hto hn
        cases (s.step i).stateQ <;> simp [toL2, beforeLookup]
      · simp [hn, toL2] at hto
    · exact fun _ => hsuccess
    · intro _ _ hs
      simp [hsuccess] at hs
    · intro hat hsc
      rcases hnxt with hn | ⟨-, hn⟩
      · exfalso
        revert hat hn
        cases (s.step i).stateQ <;> simp [atL2, toL2, beforeLookup]
      · exact absurd hsc hn
    · intro _
      exact .inl hfire
  have hstep : (s.step i).stateQ = .idle ∧ SameReservation s (s.step i) := by
    simp only [step, home, hst, hfire]
    exact ⟨rfl, rfl, rfl, rfl⟩
  obtain ⟨hnxt, hsame⟩ := hstep
  have hiss : ∀ h, ¬ ScIssued h s i := fun h hi => hfire hi.fire
  refine ⟨?_, ?_, ?_, ?_, ?_, ?_, ?_, ?_⟩
  · rintro line h - ⟨hs, -⟩
    simp [hnxt] at hs
  · intro line h hh _
    rw [hsame.holding] at hh
    exact (standing_step hinv hsafe (hiss h) hh (hnotPending h)).1
  · intro line h hh _
    rw [hsame.holding] at hh
    exact (standing_step hinv hsafe (hiss h) hh (hnotPending h)).2.imp_right
      fun hr => absurd hr.1 (hnotReturning line h)
  · simp [hnxt, toL2]
  · simp [hnxt, beforeLookup]
  · simp [hnxt]
  · simp [hnxt, atL2, toL2]
  · simp [hnxt, beforeLookup]

/-- A busy home that leaves the reservations alone keeps the invariant, if its
next state asks for nothing new. -/
theorem reservation_step_same (hidle : s.stateQ ≠ .idle) (hres : SameReservation s (s.step i))
    (hpend : ∀ line h, s.Holding line h → ((s.step i).ScPending h ↔ s.ScPending h))
    (hreturning : ∀ line h, s.LrReturning line h → ¬ LrAnswered line h s i →
      (s.step i).LrReturning line h)
    (hto : toL2 (s.step i).stateQ → toL2 s.stateQ)
    (hearly : beforeLookup (s.step i).stateQ → beforeLookup s.stateQ)
    (hat : atL2 (s.step i).stateQ → atL2 s.stateQ)
    (hunsent : (beforeLookup (s.step i).stateQ ∨ ((s.step i).stateQ = .resp ∧
      (s.step i).reqOpQ = icxOpSc ∧ (s.step i).respScSuccessQ = false ∧
      (s.step i).respErrorQ = false)) →
        Since Accepted (fun s _ => s.l2ReqValidO) ((s, i) :: past)) :
    ReservationInv ((s, i) :: past) (s.step i) := by
  have hsame := sameRequest_step hidle i
  have hiss : ∀ h, ¬ ScIssued h s i := fun h hi => hidle (accepted_idle hi.fire)
  refine ⟨?_, ?_, ?_, ?_, ?_, ?_, ?_, hunsent⟩
  · intro line h hh hp
    rw [hres.holding] at hh
    exact atLast_step hidle (hinv.pending line h hh ((hpend line h hh).mp hp))
  · intro line h hh hp
    rw [hres.holding] at hh
    exact (standing_step hinv hsafe (hiss h) hh (fun hp' => hp ((hpend line h hh).mpr hp'))).1
  · intro line h hh hp
    rw [hres.holding] at hh
    exact (standing_step hinv hsafe (hiss h) hh
      (fun hp' => hp ((hpend line h hh).mpr hp'))).2.imp_right
        fun hr => hreturning line h hr.1 hr.2
  · intro hto' hwr h
    rw [hsame.requestCoherentWrite] at hwr
    rw [hres.holding, hsame.requestLineAddr]
    exact hinv.cleared (hto hto') hwr h
  · intro he
    rw [hres.success]
    exact hinv.early (hearly he)
  · intro _ hop hs h hmask
    rw [hsame.op] at hop
    rw [hres.success] at hs
    rw [hsame.requestHartMask] at hmask
    rw [hsame.requestLineAddr]
    exact atLast_step hidle (hinv.success hidle hop hs h hmask)
  · intro hat' hop
    rw [hsame.op] at hop
    rw [hres.success]
    exact hinv.succeeding (hat hat') hop

theorem reservation_step_waitWdata (hst : s.stateQ = .waitWdata) :
    ReservationInv ((s, i) :: past) (s.step i) := by
  have hidle : s.stateQ ≠ .idle := by simp [hst]
  have hsame := sameRequest_step hidle i
  have hunsent := unsent_step (s := s) (i := i) (by simp [hst])
    (hinv.unsent (.inl (by simp [hst, beforeLookup])))
  have hnxt : ((s.step i).stateQ = .resp ∧ s.wdataFire i ∧
        (s.commandErrorQ || s.wdataProtocolError i)) ∨
      (s.step i).stateQ = .waitWdata ∨ (s.step i).stateQ = .dirLookup := by
    simp only [step, home, hst]
    by_cases hfire : s.wdataFire i
    · rw [if_pos hfire]
      split
      · rename_i herr
        exact .inl ⟨rfl, hfire, herr⟩
      · exact .inr (.inr rfl)
    · rw [if_neg hfire]
      exact .inr (.inl rfl)
  refine reservation_step_same hinv hsafe hidle
    (sameReservation_step hidle (by simp [hst]) (by simp [hst]))
    ?_ ?_ ?_ ?_ ?_ fun _ => hunsent
  · intro line h hh
    rw [ScPending, ScPending, hsame.op, hsame.requestHartMask]
    rcases hnxt with ⟨hn, hfire, herr⟩ | hn | hn
    · -- A rejected SC would keep a reservation that its hart still holds.
      simp only [hn, hst, reduceCtorEq, or_self, false_and, true_or, true_and,
        false_iff, not_and, Bool.not_eq_true]
      intro hop
      by_contra hmask
      have hval : s.reservationValidQ h := by
        simp only [Holding, and_eq_true] at hh
        exact hh.1
      have hany : (any fun h =>
          s.requestHartMask h && s.reservationValidQ h) :=
        HartVec_any_of (h := h) (by simp [hmask, hval])
      simp [reservationSafe, hst, hfire, hop, herr, hany] at hsafe
    · simp [hn, hst]
    · simp [hn, hst]
  · rintro line h ⟨hs, -⟩
    simp [hst] at hs
  · rcases hnxt with ⟨hn, -⟩ | hn | hn <;> simp [hn, toL2]
  · simp [hst, beforeLookup]
  · rcases hnxt with ⟨hn, -⟩ | hn | hn <;> simp [hn, atL2, toL2]

theorem reservation_step_dirLookup (hst : s.stateQ = .dirLookup) :
    ReservationInv ((s, i) :: past) (s.step i) := by
  have hidle : s.stateQ ≠ .idle := by simp [hst]
  have hsame := sameRequest_step hidle i
  have hunsent := unsent_step (s := s) (i := i) (by simp [hst])
    (hinv.unsent (.inl (by simp [hst, beforeLookup])))
  have hnxt : (s.step i).stateQ = .dirWait ∨ (s.step i).stateQ = .dirLookup := by
    simp only [step, home, hst]
    split <;> simp
  refine reservation_step_same hinv hsafe hidle
    (sameReservation_step hidle (by simp [hst]) (by simp [hst]))
    ?_ ?_ ?_ ?_ ?_ fun _ => hunsent
  · intro line h _
    rw [ScPending, ScPending, hsame.op, hsame.requestHartMask]
    rcases hnxt with hn | hn <;> simp [hn, hst]
  · rintro line h ⟨hs, -⟩
    simp [hst] at hs
  · rcases hnxt with hn | hn <;> simp [hn, toL2]
  · simp [hst, beforeLookup]
  · rcases hnxt with hn | hn <;> simp [hn, atL2, toL2]

/-- The states between the directory's answer and the L2 response, and the
recording of a fill. -/
theorem reservation_step_atL2 (hat : atL2 s.stateQ) (hrsp : s.stateQ ≠ .l2Resp) :
    ReservationInv ((s, i) :: past) (s.step i) := by
  have hidle : s.stateQ ≠ .idle := by
    rintro h
    simp [h, atL2, toL2] at hat
  have hwait : s.stateQ ≠ .dirWait := by
    rintro h
    simp [h, atL2, toL2] at hat
  have hsame := sameRequest_step hidle i
  have hres := sameReservation_step (i := i) hidle hwait hrsp
  have hedge : ∀ a b : HomeState, b ∈ a.next → atL2 a → a ≠ .l2Resp →
      (atL2 b ∧ (toL2 b → toL2 a) ∧ a ≠ .dirRecord) ∨ (b = .resp ∧ a = .dirRecord) := by
    intro a b
    cases a <;> cases b <;> decide
  have hnxt := hedge _ _ (stateQ_step_mem s i) hat hrsp
  have herr : s.stateQ = .dirRecord → (s.step i).respErrorQ = s.respErrorQ := by
    intro h
    simp only [step, home, h]
  refine reservation_step_same hinv hsafe hidle hres ?_ ?_ ?_ ?_ ?_ ?_
  · intro line h _
    have hnot : ∀ s' : CoherentState p, atL2 s'.stateQ ∨ s'.stateQ = .resp → ¬ s'.ScPending h := by
      rintro s' hs ⟨hp, -⟩
      rcases hp with hp | hp | hp <;> simp [hp, atL2, toL2] at hs
    refine iff_of_false (hnot _ ?_) (hnot _ (.inl hat))
    exact hnxt.imp (fun h => h.1) (fun h => h.1)
  · rintro line h ⟨hs, hok, hop, hmask, hline⟩ -
    have hrec : s.stateQ = .dirRecord := by
      rcases hs with hs | hs
      · exact hs
      · simp [hs, atL2, toL2] at hat
    rcases hnxt with ⟨-, -, hn⟩ | ⟨hn, -⟩
    · exact absurd hrec hn
    · rw [LrReturning, herr hrec, hsame.op, hsame.requestHartMask, hsame.requestLineAddr]
      exact ⟨.inr hn, hok, hop, hmask, hline⟩
  · rcases hnxt with ⟨-, hn, -⟩ | ⟨hn, -⟩
    · exact hn
    · simp [hn, toL2]
  · intro he
    rcases hnxt with ⟨hn, -⟩ | ⟨hn, -⟩
    · exfalso
      revert he hn
      cases (s.step i).stateQ <;> simp [atL2, toL2, beforeLookup]
    · simp [hn, beforeLookup] at he
  · exact fun _ => hat
  · rintro (he | ⟨-, hop, hfail, -⟩)
    · exfalso
      rcases hnxt with ⟨hn, -⟩ | ⟨hn, -⟩
      · revert he hn
        cases (s.step i).stateQ <;> simp [atL2, toL2, beforeLookup]
      · simp [hn, beforeLookup] at he
    · rw [hsame.op] at hop
      rw [hres.success, hinv.succeeding hat hop] at hfail
      simp at hfail

theorem reservation_step_resp (hst : s.stateQ = .resp) :
    ReservationInv ((s, i) :: past) (s.step i) := by
  have hidle : s.stateQ ≠ .idle := by simp [hst]
  have hsame := sameRequest_step hidle i
  have hres := sameReservation_step (i := i) hidle (by simp [hst]) (by simp [hst])
  have herr : (s.step i).respErrorQ = s.respErrorQ := by
    simp only [step, home, hst]
  have hnxt : ((s.step i).stateQ = .idle ∧ s.responseFire i) ∨ (s.step i).stateQ = .resp := by
    simp only [step, home, hst]
    by_cases hfire : s.responseFire i <;> simp [hfire]
  refine reservation_step_same hinv hsafe hidle hres ?_ ?_ ?_ ?_ ?_ ?_
  · intro line h _
    rw [ScPending, ScPending]
    rcases hnxt with ⟨hn, -⟩ | hn <;> simp [hn, hst]
  · rintro line h ⟨-, hok, hop, hmask, hline⟩ hnot
    rcases hnxt with ⟨-, hfire⟩ | hn
    · exact absurd ⟨hfire, hok, hop, hmask, hline⟩ hnot
    · rw [LrReturning, herr, hsame.op, hsame.requestHartMask, hsame.requestLineAddr]
      exact ⟨.inr hn, hok, hop, hmask, hline⟩
  · rcases hnxt with ⟨hn, -⟩ | hn <;> simp [hn, toL2]
  · rcases hnxt with ⟨hn, -⟩ | hn <;> simp [hn, beforeLookup]
  · rcases hnxt with ⟨hn, -⟩ | hn <;> simp [hn, atL2, toL2]
  · rintro (he | ⟨-, hop, hfail, hok⟩)
    · rcases hnxt with ⟨hn, -⟩ | hn <;> simp [hn, beforeLookup] at he
    · rw [hsame.op] at hop
      rw [hres.success] at hfail
      rw [herr] at hok
      exact unsent_step (by simp [hst]) (hinv.unsent (.inr ⟨hst, hop, hfail, hok⟩))

end

/-- The registers of LR/SC after the answer of the directory. -/
theorem directoryResponse_reservation (s : CoherentState p) (i : CoherentInput p) :
    (s.directoryResponse i).reservationValidQ = s.reservationAfterLookup ∧
      (s.directoryResponse i).reservationLineQ = s.reservationLineQ ∧
      (s.reqOpQ = icxOpSc → (s.directoryResponse i).respScSuccessQ = s.requestScReservationMatch) ∧
      (toL2 (s.directoryResponse i).stateQ → s.reqOpQ = icxOpSc → s.requestScReservationMatch) := by
  simp only [directoryResponse]
  split
  · simp_all [toL2]
  · repeat' split
    all_goals simp_all

theorem requestScReservationMatch_eq_true (hmat : s.requestScReservationMatch) {h : Fin p.numHarts}
    (hmask : s.requestHartMask h) : s.Holding s.requestLineAddr h := by
  simp only [requestScReservationMatch, any, decide_eq_true_eq, and_eq_true] at hmat
  obtain ⟨h', ⟨hmask', hval⟩, hline⟩ := hmat
  have heq : h' = h := by
    simp only [requestHartMask, beq_iff_eq] at hmask hmask'
    exact hartId_injective (hmask'.symm.trans hmask)
  subst heq
  simp only [Holding, and_eq_true]
  exact ⟨hval, hline⟩

section

variable (hinv : ReservationInv past s) (hsafe : reservationSafe s i)

include hinv hsafe

theorem reservation_step_dirWait (hst : s.stateQ = .dirWait) :
    ReservationInv ((s, i) :: past) (s.step i) := by
  have hidle : s.stateQ ≠ .idle := by simp [hst]
  have hsame := sameRequest_step hidle i
  have hiss : ∀ h, ¬ ScIssued h s i := fun h hi => hidle (accepted_idle hi.fire)
  have hnotReturning : ∀ line h, ¬ s.LrReturning line h := by
    rintro line h ⟨hs, -⟩
    simp [hst] at hs
  have hunsent := unsent_step (s := s) (i := i) (by simp [hst])
    (hinv.unsent (.inl (by simp [hst, beforeLookup])))
  by_cases hval : s.filter.lookupResponseValidO
  · obtain ⟨hreserve, hline, hsuccess, hto⟩ := directoryResponse_reservation s i
    have hnxt : (s.step i).stateQ = (s.directoryResponse i).stateQ := by
      simp only [step, home, hst, hval, if_true]
    have hedge : toL2 (s.step i).stateQ ∨ (s.step i).stateQ = .resp := by
      clear hnxt hto
      cases directoryOutcome (i := i) hst hval <;> simp [*, toL2]
    have hreserve' : (s.step i).reservationValidQ = s.reservationAfterLookup := by
      rw [← hreserve]
      simp only [step, home, hst, hval, if_true]
    have hline' : (s.step i).reservationLineQ = s.reservationLineQ := by
      rw [← hline]
      simp only [step, home, hst, hval, if_true]
    have hsuccess' : s.reqOpQ = icxOpSc →
        (s.step i).respScSuccessQ = s.requestScReservationMatch := by
      intro hop
      rw [← hsuccess hop]
      simp only [step, home, hst, hval, if_true]
    have hnotPending : ∀ h, ¬ (s.step i).ScPending h := by
      rintro h ⟨hs, -⟩
      rcases hedge with hn | hn
      · rcases hs with hs | hs | hs <;> simp [hs, toL2] at hn
      · simp [hn] at hs
    -- A reservation that stands after the answer stood before it, and its hart
    -- has no SC in progress.
    have hkept : ∀ line h, (s.step i).Holding line h → s.Holding line h ∧ ¬ s.ScPending h := by
      intro line h hh
      simp only [Holding, hreserve', hline', and_eq_true, beq_iff_eq] at hh
      obtain ⟨hv, hl⟩ := hh
      simp only [reservationAfterLookup] at hv
      split at hv
      · simp at hv
      split at hv
      · simp at hv
      · rename_i hnotSc
        refine ⟨by simp [Holding, hv, hl], ?_⟩
        rintro ⟨-, hop, hmask⟩
        simp [hop, hmask] at hnotSc
    have hstanding := fun line h (hh : (s.step i).Holding line h) =>
      standing_step hinv hsafe (hiss h) (hkept line h hh).1 (hkept line h hh).2
    refine ⟨?_, ?_, ?_, ?_, ?_, ?_, ?_, ?_⟩
    · exact fun line h _ hp => absurd hp (hnotPending h)
    · exact fun line h hh _ => (hstanding line h hh).1
    · exact fun line h hh _ => (hstanding line h hh).2.imp_right
        fun hr => absurd hr.1 (hnotReturning line h)
    · intro hto' hwr h
      rw [hsame.requestCoherentWrite] at hwr
      rw [hsame.requestLineAddr]
      have hgranted : (s.reqOpQ != icxOpSc || s.requestScReservationMatch) := by
        by_cases hop : s.reqOpQ = icxOpSc
        · simp [hto (hnxt ▸ hto') hop]
        · simp [hop]
      by_contra hh
      simp only [Bool.not_eq_false] at hh
      have hold := (hkept _ h hh).1
      simp only [Holding, hreserve', reservationAfterLookup, hwr, hgranted, Bool.true_and] at hh
      simp only [Holding] at hold
      simp [hold] at hh
    · intro he
      exfalso
      rcases hedge with hn | hn
      · revert he hn
        cases (s.step i).stateQ <;> simp [toL2, beforeLookup]
      · simp [hn, beforeLookup] at he
    · intro _ hop hs h hmask
      rw [hsame.op] at hop
      rw [hsuccess' hop] at hs
      rw [hsame.requestHartMask] at hmask
      rw [hsame.requestLineAddr]
      exact atLast_step hidle (hinv.pending _ h (requestScReservationMatch_eq_true hs hmask)
        ⟨.inr (.inr hst), hop, hmask⟩)
    · intro hat hop
      rw [hsame.op] at hop
      rw [hsuccess' hop]
      refine hto ?_ hop
      rw [← hnxt]
      rcases hedge with hn | hn
      · exact hn
      · simp [hn, atL2, toL2] at hat
    · exact fun _ => hunsent
  have hstep : (s.step i).stateQ = .dirWait ∧ SameReservation s (s.step i) := by
    simp only [step, home, hst, hval]
    exact ⟨rfl, rfl, rfl, rfl⟩
  obtain ⟨hnxt, hres⟩ := hstep
  refine reservation_step_same hinv hsafe hidle hres ?_ ?_ ?_ ?_ ?_ fun _ => hunsent
  · intro line h _
    rw [ScPending, ScPending, hsame.op, hsame.requestHartMask, hnxt, hst]
  · exact fun line h hr _ => absurd hr (hnotReturning line h)
  · simp [hnxt, toL2]
  · simp [hst, beforeLookup]
  · simp [hnxt, atL2, toL2]

theorem reservation_step_l2Resp (hst : s.stateQ = .l2Resp) :
    ReservationInv ((s, i) :: past) (s.step i) := by
  have hidle : s.stateQ ≠ .idle := by simp [hst]
  have hat : atL2 s.stateQ := by simp [hst, atL2]
  have hsame := sameRequest_step hidle i
  have hiss : ∀ h, ¬ ScIssued h s i := fun h hi => hidle (accepted_idle hi.fire)
  have hnotReturning : ∀ line h, ¬ s.LrReturning line h := by
    rintro line h ⟨hs, -⟩
    simp [hst] at hs
  have hnotPending : ∀ h, ¬ s.ScPending h := by
    rintro h ⟨hs, -⟩
    simp [hst] at hs
  have hstanding := fun line h (hh : s.Holding line h) =>
    standing_step hinv hsafe (hiss h) hh (hnotPending h)
  have hedge : (s.step i).stateQ = .l2Resp ∨ (s.step i).stateQ = .dirRecord ∨
      (s.step i).stateQ = .resp := by
    simpa [hst, HomeState.next] using stateQ_step_mem s i
  have hsuccess : s.reqOpQ = icxOpSc → (s.step i).respScSuccessQ = s.respScSuccessQ := by
    intro hop
    simp only [step, home, hst]
    split
    · simp [l2Response, hop]
    · rfl
  have hnew : ∀ line h, (s.step i).Holding line h →
      s.Holding line h ∨ (LrGranted line h s i ∧ (s.step i).LrReturning line h) := by
    intro line h hh
    simp only [step, home, hst] at hh
    by_cases hfire : s.l2ResponseFire i
    · by_cases hset : (s.reqOpQ == icxOpLr && !(i.l2RespErrorI || s.l2ResponseIdentityError i) &&
          s.requestHartMask h)
      · simp only [hfire, if_true, l2Response, Holding, hset, Bool.true_and, beq_iff_eq] at hh
        simp only [and_eq_true, beq_iff_eq, Bool.not_eq_true'] at hset
        obtain ⟨⟨hop, hok⟩, hmask⟩ := hset
        refine .inr ⟨⟨hfire, hok, hop, hmask, hh⟩, ?_⟩
        rw [LrReturning, hsame.op, hsame.requestHartMask, hsame.requestLineAddr]
        refine ⟨?_, ?_, hop, hmask, hh⟩
        · simp only [step, home, hst, hfire, if_true, l2Response]
          split <;> simp
        · simp only [step, home, hst, hfire, if_true, l2Response]
          exact hok
      · simp only [hfire, if_true, l2Response, Holding, hset] at hh
        exact .inl (by simpa [Holding] using hh)
    · simp only [hfire, Holding] at hh
      exact .inl (by simpa [Holding] using hh)
  refine ⟨?_, ?_, ?_, ?_, ?_, ?_, ?_, ?_⟩
  · rintro line h - ⟨hs, -⟩
    rcases hedge with hn | hn | hn <;> simp [hn] at hs
  · intro line h hh _
    rcases hnew line h hh with hold | ⟨hgranted, -⟩
    · exact (hstanding line h hold).1
    · exact .inl hgranted
  · intro line h hh _
    rcases hnew line h hh with hold | ⟨-, hreturning⟩
    · exact (hstanding line h hold).2.imp_right fun hr => absurd hr.1 (hnotReturning line h)
    · exact .inr hreturning
  · intro hto
    rcases hedge with hn | hn | hn <;> simp [hn, toL2] at hto
  · intro he
    rcases hedge with hn | hn | hn <;> simp [hn, beforeLookup] at he
  · intro _ hop hs h hmask
    rw [hsame.op] at hop
    rw [hsuccess hop] at hs
    rw [hsame.requestHartMask] at hmask
    rw [hsame.requestLineAddr]
    exact atLast_step hidle (hinv.success hidle hop hs h hmask)
  · intro _ hop
    rw [hsame.op] at hop
    rw [hsuccess hop]
    exact hinv.succeeding hat hop
  · rintro (he | ⟨-, hop, hfail, -⟩)
    · rcases hedge with hn | hn | hn <;> simp [hn, beforeLookup] at he
    · rw [hsame.op] at hop
      rw [hsuccess hop, hinv.succeeding hat hop] at hfail
      simp at hfail

theorem ReservationInv.step : ReservationInv ((s, i) :: past) (s.step i) := by
  cases hst : s.stateQ with
  | idle => exact reservation_step_idle hinv hsafe hst
  | waitWdata => exact reservation_step_waitWdata hinv hsafe hst
  | dirLookup => exact reservation_step_dirLookup hinv hsafe hst
  | dirWait => exact reservation_step_dirWait hinv hsafe hst
  | l2Resp => exact reservation_step_l2Resp hinv hsafe hst
  | resp => exact reservation_step_resp hinv hsafe hst
  | evictProbeStart | evictProbeWait | dirAllocate | writeProbeStart
  | writeProbeWait | dirClear | l2Req | l2Wdata | dirRecord =>
    exact reservation_step_atL2 hinv hsafe (by simp [hst, atL2, toL2]) (by simp [hst])

end

end Step

section

variable {past : Past (CoherentState p) (CoherentInput p)} {s : CoherentState p}

theorem reservationInv_run
    (hrun : Run (coherentHome p) (cycleEnv fun s i => reservationSafe s i) past s) :
    ReservationInv past s := by
  refine hrun.invariant ?_ fun _ _ _ _ hsafe hinv => hinv.step hsafe
  rintro s ⟨powerUp, rfl⟩
  refine ⟨?_, ?_, ?_, ?_, ?_, ?_, ?_, ?_⟩
  all_goals simp [reset, Holding, toL2, atL2, beforeLookup]

/-- In every run in which no broken reservation is left standing, SCs are
atomic. -/
theorem scAtomic_of_safe
    (hrun : Run (coherentHome p) (cycleEnv fun s i => reservationSafe s i = true) past s) :
    ScAtomic past s := by
  have hinv := reservationInv_run hrun
  constructor
  · intro hstate hop hsuccess h hmask
    exact hinv.success (by simp [hstate]) hop hsuccess h hmask
  · intro hstate hop hfail hok
    exact hinv.unsent (Or.inr ⟨hstate, hop, hfail, hok⟩)

end

section Demo

variable (line : BitVec 64) (h : Fin p.numHarts) (s : CoherentState p) (i : CoherentInput p)

instance : Decidable (LrGranted line h s i) :=
  decidable_of_iff
    (s.l2ResponseFire i = true ∧ (i.l2RespErrorI || s.l2ResponseIdentityError i) = false ∧
      s.reqOpQ = icxOpLr ∧ s.requestHartMask h = true ∧ s.requestLineAddr = line)
    ⟨fun ⟨a, b, c, d, e⟩ => ⟨a, b, c, d, e⟩, fun ⟨a, b, c, d, e⟩ => ⟨a, b, c, d, e⟩⟩

instance : Decidable (LrAnswered line h s i) :=
  decidable_of_iff
    (s.responseFire i = true ∧ s.respErrorQ = false ∧ s.reqOpQ = icxOpLr ∧
      s.requestHartMask h = true ∧ s.requestLineAddr = line)
    ⟨fun ⟨a, b, c, d, e⟩ => ⟨a, b, c, d, e⟩, fun ⟨a, b, c, d, e⟩ => ⟨a, b, c, d, e⟩⟩

instance : Decidable (ReservationBroken line h s i) :=
  decidable_of_iff
    ((s.requestFire i = true ∧ i.reqOpI = icxOpSc ∧ i.reqHartIdI = p.hartId h) ∨
      (s.l2RequestFire i = true ∧ s.requestIsWrite = true ∧ s.requestLineAddr = line))
    (or_congr ⟨fun ⟨a, b, c⟩ => ⟨a, b, c⟩, fun ⟨a, b, c⟩ => ⟨a, b, c⟩⟩
      ⟨fun ⟨a, b, c⟩ => ⟨a, b, c⟩, fun ⟨a, b, c⟩ => ⟨a, b, c⟩⟩)

instance : Decidable (Accepted s i) := inferInstanceAs (Decidable (s.requestFire i = true))

instance (past : Past (CoherentState p) (CoherentInput p)) : Decidable (Reserved line h past) :=
  inferInstanceAs (Decidable (Since _ _ past ∧ Since _ _ past))

/-- Hart 0 reserves a line and its SC to the line succeeds. -/
def lrSc : List (CoherentInput twoWayParams) :=
  command _ 0 icxOpLr icxAttrCacheable 0x40 7 ++ command _ 0 icxOpSc icxAttrCacheable 0x40 7

theorem scAtomic_of_safe_lrSc : AtLast Accepted (Reserved 0x40 ⟨0, by decide⟩) (demoRun _ lrSc).1 :=
  (scAtomic_of_safe
    (exec_run_ok (demoInputs _ lrSc)
      (.reset (powerUpZero_init twoWayParams)) (by decide +kernel))).success
    (by decide +kernel) (by decide +kernel) (by decide +kernel) ⟨0, by decide⟩
    (by decide +kernel)

/-- Between LR and SC of hart 0, hart 1 writes the line with an uncacheable
WRITE, which leaves the reservation standing. -/
def lrWriteSc : List (CoherentInput twoWayParams) :=
  command _ 0 icxOpLr icxAttrCacheable 0x40 7 ++ command _ 1 icxOpWrite 0 0x40 7 ++
    command _ 0 icxOpSc icxAttrCacheable 0x40 7

theorem scAtomic_fails :
    ¬ ∀ (p : CoherentParams) past s, Run (coherentHome p) anyEnv past s → ScAtomic past s := by
  intro hatomic
  have hreserved := (hatomic twoWayParams _ _
    (exec_run (demoInputs _ lrWriteSc) (.reset (powerUpZero_init twoWayParams)))).success
    (by decide +kernel) (by decide +kernel) (by decide +kernel) ⟨0, by decide⟩
    (by decide +kernel)
  revert hreserved
  decide +kernel

end Demo

end CoherentState

end OpenRV64
