/-
The registers of traps and returns.  A trap writes the frame of its target mode alone,
and a write through an S-mode address keeps the machine-only registers, except where
the views of `mie` and `mip` forget the delegation mask in the part they keep.
-/
import OpenRV64.Csr

namespace OpenRV64

open BitVec (getLsbD_and getLsbD_not getLsbD_or eq_of_getLsbD_eq)

section Bits

theorem getLsbD_bitAt {k : ℕ} (hk : k < 64) (j : ℕ) : (bitAt k).getLsbD j = decide (j = k) := by
  rw [bitAt, BitVec.getLsbD_shiftLeft]
  by_cases h : j = k
  · subst h
    simp [hk]
  simp only [h, decide_false, Bool.and_eq_false_iff]
  by_cases hlt : j < k
  · simp [hlt]
  · right
    simp
    omega

theorem getLsbD_assignBit {k : ℕ} (hk : k < 64) (x : BitVec 64) (b : Bool) (j : ℕ) :
    (assignBit x k b).getLsbD j = if j = k then b else x.getLsbD j := by
  cases b with
  | false =>
    rw [assignBit, if_low, getLsbD_and, getLsbD_not, getLsbD_bitAt hk]
    by_cases h : j = k
    · simp [h]
    · by_cases hj : j < 64
      · simp [h, hj]
      · have hz := BitVec.getLsbD_of_ge x j (by omega)
        simp [h, hz]
  | true =>
    rw [assignBit, if_pos rfl, getLsbD_or, getLsbD_bitAt hk]
    by_cases h : j = k <;> simp [h]

theorem getLsbD_assignField {k : ℕ} (hk : k + 1 < 64) (x : BitVec 64) (v : BitVec 2) (j : ℕ) :
    (assignField x k v).getLsbD j =
      if j = k then v.getLsbD 0 else if j = k + 1 then v.getLsbD 1 else x.getLsbD j := by
  rw [assignField, getLsbD_assignBit hk, getLsbD_assignBit (by omega)]
  by_cases hlow : j = k
  · subst hlow
    simp
  · simp [hlow]

theorem getLsbD_field (x : BitVec 64) (k j : ℕ) :
    (field x k).getLsbD j = (decide (j < 2) && x.getLsbD (k + j)) := by
  rw [field, BitVec.getLsbD_extractLsb']

theorem eq_of_bits {v w : BitVec 2} (hlow : v.getLsbD 0 = w.getLsbD 0)
    (hhigh : v.getLsbD 1 = w.getLsbD 1) : v = w := by
  apply eq_of_getLsbD_eq
  intro j hj
  rcases (by omega : j = 0 ∨ j = 1) with rfl | rfl
  · exact hlow
  · exact hhigh

theorem field_assignField {k : ℕ} (hk : k + 1 < 64) (x : BitVec 64) (v : BitVec 2) :
    field (assignField x k v) k = v := by
  apply eq_of_bits
  · rw [getLsbD_field, Nat.add_zero, getLsbD_assignField hk]
    simp
  · rw [getLsbD_field, getLsbD_assignField hk]
    simp

theorem field_congr {x y : BitVec 64} {k : ℕ} (hlow : x.getLsbD k = y.getLsbD k)
    (hhigh : x.getLsbD (k + 1) = y.getLsbD (k + 1)) : field x k = field y k := by
  apply eq_of_bits
  · rw [getLsbD_field, getLsbD_field, Nat.add_zero, hlow]
  · rw [getLsbD_field, getLsbD_field, hhigh]

theorem field_assignField_ne {k m : ℕ} (hk : k + 1 < 64) (hlow : m + 1 < k ∨ k + 1 < m)
    (x : BitVec 64) (v : BitVec 2) : field (assignField x k v) m = field x m := by
  apply field_congr
  · rw [getLsbD_assignField hk, if_neg (by omega), if_neg (by omega)]
  · rw [getLsbD_assignField hk, if_neg (by omega), if_neg (by omega)]

end Bits

/-- The part of the trap registers that belongs to the handler of one mode. -/
@[ext] structure TrapFrame where
  pc : BitVec 64
  cause : BitVec 64
  tval : BitVec 64
  interruptEnable : Bool
  previousEnable : Bool
  previousPriv : BitVec 2

namespace TrapRegs

variable (r : TrapRegs)

/-- The frame of S-mode, or of M-mode. -/
def frame (toS : Bool) : TrapFrame :=
  if toS then
    { pc := r.sepcQ
      cause := r.scauseQ
      tval := r.stvalQ
      interruptEnable := r.mstatusQ.getLsbD mstatusSie
      previousEnable := r.mstatusQ.getLsbD mstatusSpie
      previousPriv := if r.mstatusQ.getLsbD mstatusSpp then privS else privU }
  else
    { pc := r.mepcQ
      cause := r.mcauseQ
      tval := r.mtvalQ
      interruptEnable := r.mstatusQ.getLsbD mstatusMie
      previousEnable := r.mstatusQ.getLsbD mstatusMpie
      previousPriv := field r.mstatusQ mstatusMpp }

/-- The bits of mstatus that are part of a frame. -/
def frameMask : BitVec 64 :=
  bitAt mstatusSie ||| bitAt mstatusMie ||| bitAt mstatusSpie ||| bitAt mstatusMpie |||
    bitAt mstatusSpp ||| bitAt mstatusMpp ||| bitAt (mstatusMpp + 1)

/-- The registers with both frames and the privilege blanked out. -/
def outsideFrames : TrapRegs :=
  { r with
    mstatusQ := r.mstatusQ &&& ~~~frameMask
    mepcQ := 0
    mcauseQ := 0
    mtvalQ := 0
    sepcQ := 0
    scauseQ := 0
    stvalQ := 0
    privModeQ := 0 }

/-- Reserved encodings are absent. -/
structure Legal : Prop where
  mpp : field r.mstatusQ mstatusMpp ≠ 0b10
  priv : r.privModeQ = privU ∨ r.privModeQ = privS ∨ r.privModeQ = privM

/-- A trap was taken: it went to S-mode exactly when `toS`, it saved the interrupted
privilege and interrupt enable in the frame of its target, and it left everything else. -/
structure Entered (r' : TrapRegs) (i : CsrInput) (toS : Bool) : Prop where
  target : r'.privModeQ = if toS then privS else privM
  pc : (r'.frame toS).pc = aligned i.trapPcI
  cause : (r'.frame toS).cause = i.trapCauseValue
  tval : (r'.frame toS).tval = i.trapTvalI
  disabled : (r'.frame toS).interruptEnable = false
  previousEnable : (r'.frame toS).previousEnable = (r.frame toS).interruptEnable
  previousPriv : (r'.frame toS).previousPriv = r.privModeQ
  otherFrame : r'.frame (!toS) = r.frame (!toS)
  outside : r'.outsideFrames = r.outsideFrames

theorem frameMask_bit (j : ℕ) :
    frameMask.getLsbD j = decide (j = 1 ∨ j = 3 ∨ j = 5 ∨ j = 7 ∨ j = 8 ∨ j = 11 ∨ j = 12) := by
  simp only [frameMask, getLsbD_or, getLsbD_bitAt (show mstatusSie < 64 by decide),
    getLsbD_bitAt (show mstatusMie < 64 by decide), getLsbD_bitAt (show mstatusSpie < 64 by decide),
    getLsbD_bitAt (show mstatusMpie < 64 by decide), getLsbD_bitAt (show mstatusSpp < 64 by decide),
    getLsbD_bitAt (show mstatusMpp < 64 by decide),
    getLsbD_bitAt (show mstatusMpp + 1 < 64 by decide), Bool.decide_or, Bool.or_assoc]

/-- Two values that agree off the frames agree under the mask. -/
theorem outside_congr {x y : BitVec 64}
    (h : ∀ j, j ≠ 1 → j ≠ 3 → j ≠ 5 → j ≠ 7 → j ≠ 8 → j ≠ 11 → j ≠ 12 → x.getLsbD j = y.getLsbD j) :
    x &&& ~~~frameMask = y &&& ~~~frameMask := by
  apply eq_of_getLsbD_eq
  intro j hj
  rw [getLsbD_and, getLsbD_and, getLsbD_not, frameMask_bit]
  by_cases hin : j = 1 ∨ j = 3 ∨ j = 5 ∨ j = 7 ∨ j = 8 ∨ j = 11 ∨ j = 12
  · simp [hin]
  · have hbit : x.getLsbD j = y.getLsbD j := by
      apply h <;> omega
    rw [hbit]

variable {r} {i : CsrInput}

theorem enterS_bit (r : TrapRegs) (i : CsrInput) (j : ℕ) : (r.enterS i).mstatusQ.getLsbD j =
      if j = mstatusSpp then r.privModeQ == privS
      else if j = mstatusSie then false
      else if j = mstatusSpie then r.mstatusQ.getLsbD mstatusSie
      else r.mstatusQ.getLsbD j := by
  simp (disch := decide) only [enterS, getLsbD_assignBit]

theorem enterM_bit (r : TrapRegs) (i : CsrInput) (j : ℕ) : (r.enterM i).mstatusQ.getLsbD j =
      if j = mstatusMpp then r.privModeQ.getLsbD 0
      else if j = mstatusMpp + 1 then r.privModeQ.getLsbD 1
      else if j = mstatusMie then false
      else if j = mstatusMpie then r.mstatusQ.getLsbD mstatusMie
      else r.mstatusQ.getLsbD j := by
  simp (disch := decide) only [enterM, getLsbD_assignBit, getLsbD_assignField]

theorem returnM_bit (r : TrapRegs) (j : ℕ) : r.returnM.mstatusQ.getLsbD j =
      if j = mstatusMprv then !(r.mppValue != privM) && r.mstatusQ.getLsbD mstatusMprv
      else if j = mstatusMpp then false
      else if j = mstatusMpp + 1 then false
      else if j = mstatusMpie then true
      else if j = mstatusMie then r.mstatusQ.getLsbD mstatusMpie
      else r.mstatusQ.getLsbD j := by
  cases hm : (r.mppValue != privM) with
  | false =>
    simp (disch := decide) only [returnM, hm, getLsbD_assignBit, getLsbD_assignField, if_low]
    by_cases hj : j = mstatusMprv
    · subst hj
      rfl
    · rw [if_neg hj]
      rfl
  | true =>
    simp (disch := decide) only [returnM, hm, getLsbD_assignBit, getLsbD_assignField, if_true]
    rfl

theorem returnS_bit (r : TrapRegs) (j : ℕ) : r.returnS.mstatusQ.getLsbD j =
      if j = mstatusMprv then false
      else if j = mstatusSpp then false
      else if j = mstatusSpie then true
      else if j = mstatusSie then r.mstatusQ.getLsbD mstatusSpie
      else r.mstatusQ.getLsbD j := by
  simp (disch := decide) only [returnS, getLsbD_assignBit]

theorem entered_enterS (hleg : r.Legal) (hbelow : r.privModeQ ≠ privM) :
    Entered r (r.enterS i) i true where
  target := rfl
  pc := rfl
  cause := rfl
  tval := rfl
  disabled := enterS_bit r i mstatusSie
  previousEnable := enterS_bit r i mstatusSpie
  previousPriv := by
    have hspp : (r.enterS i).mstatusQ.getLsbD mstatusSpp = (r.privModeQ == privS) :=
      enterS_bit r i mstatusSpp
    show (if (r.enterS i).mstatusQ.getLsbD mstatusSpp then privS else privU) = _
    rw [hspp]
    rcases hleg.priv with h | h | h
    · rw [h]
      rfl
    · rw [h]
      rfl
    · exact absurd h hbelow
  otherFrame := by
    apply TrapFrame.ext
    · rfl
    · rfl
    · rfl
    · exact enterS_bit r i mstatusMie
    · exact enterS_bit r i mstatusMpie
    · exact field_congr (enterS_bit r i mstatusMpp) (enterS_bit r i (mstatusMpp + 1))
  outside := by
    have hstatus : (r.enterS i).mstatusQ &&& ~~~frameMask = r.mstatusQ &&& ~~~frameMask := by
      apply outside_congr
      intro j h1 h3 h5 h7 h8 h11 h12
      rw [enterS_bit, if_neg h8, if_neg h1, if_neg h5]
    rw [outsideFrames, hstatus]
    rfl

theorem entered_enterM : Entered r (r.enterM i) i false where
  target := rfl
  pc := rfl
  cause := rfl
  tval := rfl
  disabled := enterM_bit r i mstatusMie
  previousEnable := enterM_bit r i mstatusMpie
  previousPriv := by
    apply eq_of_bits
    · exact (getLsbD_field _ _ _).trans (enterM_bit r i mstatusMpp)
    · exact (getLsbD_field _ _ _).trans (enterM_bit r i (mstatusMpp + 1))
  otherFrame := by
    apply TrapFrame.ext
    · rfl
    · rfl
    · rfl
    · exact enterM_bit r i mstatusSie
    · exact enterM_bit r i mstatusSpie
    · show (if (r.enterM i).mstatusQ.getLsbD mstatusSpp then privS else privU) = _
      rw [enterM_bit]
      rfl
  outside := by
    have hstatus : (r.enterM i).mstatusQ &&& ~~~frameMask = r.mstatusQ &&& ~~~frameMask := by
      apply outside_congr
      intro j h1 h3 h5 h7 h8 h11 h12
      rw [enterM_bit, if_neg h11, if_neg h12, if_neg h3, if_neg h7]
    rw [outsideFrames, hstatus]
    rfl

theorem write_privModeQ (addr : BitVec 12) (value mask : BitVec 64) :
    (r.write addr value mask).privModeQ = r.privModeQ := by
  simp only [write, apply_ite TrapRegs.privModeQ, ite_self]

theorem write_mstatusQ (addr : BitVec 12) (value mask : BitVec 64) :
    (r.write addr value mask).mstatusQ =
      if addr == csrSstatus then
        (r.mstatusQ &&& ~~~sstatusRwMask) ||| (value &&& sstatusRwMask)
      else if addr == csrMstatus then r.writeMstatus value
      else r.mstatusQ := by
  by_cases hs : (addr == csrSstatus)
  · simp only [write, if_pos hs]
  by_cases hm : (addr == csrMstatus)
  · have haddr : addr = csrMstatus := by simpa using hm
    subst haddr
    rfl
  · simp only [write, if_neg hs, if_neg hm, apply_ite TrapRegs.mstatusQ, ite_self]

/-- A write of mstatus never stores the reserved MPP encoding. -/
theorem field_writeMstatus (value : BitVec 64) : field (r.writeMstatus value) mstatusMpp =
      if field value mstatusMpp = 0b10 then privU else field value mstatusMpp := by
  rw [writeMstatus, field_assignField_ne (by decide) (by decide),
    field_assignField_ne (by decide) (by decide)]
  exact field_assignField (by decide) _ _

theorem sstatusRwMask_bit (j : ℕ) :
    sstatusRwMask.getLsbD j = decide (j = 1 ∨ j = 5 ∨ j = 8 ∨ j = 18 ∨ j = 19) := by
  simp (disch := decide) only [sstatusRwMask, getLsbD_or, getLsbD_bitAt,
    Bool.decide_or, Bool.or_assoc]

/-- A write of sstatus keeps each bit outside its mask. -/
theorem sstatus_keeps (status value : BitVec 64) {j : ℕ} (hj : j < 64)
    (hout : sstatusRwMask.getLsbD j = false) :
    ((status &&& ~~~sstatusRwMask) ||| (value &&& sstatusRwMask)).getLsbD j = status.getLsbD j := by
  rw [getLsbD_or, getLsbD_and, getLsbD_and, getLsbD_not, hout]
  simp [hj]

theorem legal_mppValue (hleg : r.Legal) : r.mppValue = field r.mstatusQ mstatusMpp :=
  if_neg hleg.mpp

/-- A two-bit value that is not reserved names a mode. -/
theorem mode_of_ne_reserved {v : BitVec 2} (hv : v ≠ 0b10) : v = privU ∨ v = privS ∨ v = privM := by
  revert v
  decide

theorem Legal.enter (hleg : r.Legal) (i : CsrInput) : (r.enterS i).Legal ∧ (r.enterM i).Legal := by
  constructor
  · constructor
    · have hmpp : field (r.enterS i).mstatusQ mstatusMpp = field r.mstatusQ mstatusMpp :=
        field_congr (enterS_bit r i mstatusMpp) (enterS_bit r i (mstatusMpp + 1))
      rw [hmpp]
      exact hleg.mpp
    · exact .inr (.inl rfl)
  · constructor
    · have hmpp : field (r.enterM i).mstatusQ mstatusMpp = r.privModeQ :=
        (entered_enterM (r := r) (i := i)).previousPriv
      rw [hmpp]
      rcases hleg.priv with h | h | h <;> rw [h] <;> decide
    · exact .inr (.inr rfl)

theorem Legal.leave (hleg : r.Legal) : r.returnM.Legal ∧ r.returnS.Legal := by
  constructor
  · constructor
    · have hmpp : field r.returnM.mstatusQ mstatusMpp = privU := by
        apply eq_of_bits
        · exact (getLsbD_field _ _ _).trans (returnM_bit r mstatusMpp)
        · exact (getLsbD_field _ _ _).trans (returnM_bit r (mstatusMpp + 1))
      rw [hmpp]
      decide
    · show r.mppValue = privU ∨ r.mppValue = privS ∨ r.mppValue = privM
      rw [legal_mppValue hleg]
      exact mode_of_ne_reserved hleg.mpp
  · constructor
    · have hmpp : field r.returnS.mstatusQ mstatusMpp = field r.mstatusQ mstatusMpp :=
        field_congr (returnS_bit r mstatusMpp) (returnS_bit r (mstatusMpp + 1))
      rw [hmpp]
      exact hleg.mpp
    · show (if r.mstatusQ.getLsbD mstatusSpp then privS else privU) = privU ∨
        (if r.mstatusQ.getLsbD mstatusSpp then privS else privU) = privS ∨ _
      cases r.mstatusQ.getLsbD mstatusSpp with
      | false => exact .inl rfl
      | true => exact .inr (.inl rfl)

theorem Legal.write (hleg : r.Legal) (addr : BitVec 12) (value mask : BitVec 64) :
    (r.write addr value mask).Legal where
  mpp := by
    rw [write_mstatusQ]
    by_cases hs : (addr == csrSstatus)
    · rw [if_pos hs, field_congr
        (sstatus_keeps r.mstatusQ value (by decide) (sstatusRwMask_bit mstatusMpp))
        (sstatus_keeps r.mstatusQ value (by decide) (sstatusRwMask_bit (mstatusMpp + 1)))]
      exact hleg.mpp
    by_cases hm : (addr == csrMstatus)
    · rw [if_neg hs, if_pos hm, field_writeMstatus]
      by_cases hresv : field value mstatusMpp = 0b10
      · rw [if_pos hresv]
        decide
      · rw [if_neg hresv]
        exact hresv
    · rw [if_neg hs, if_neg hm]
      exact hleg.mpp
  priv := by
    rw [write_privModeQ]
    exact hleg.priv

/-- The registers with everything S-mode owns blanked out: the S-mode registers, the
mstatus bits that sstatus writes, and the delegated bits of `mie` and `mip`. -/
def machine (r : TrapRegs) : TrapRegs :=
  { r with
    mstatusQ := r.mstatusQ &&& ~~~sstatusRwMask
    mieQ := r.mieQ &&& ~~~r.midelegQ
    mipSwQ := r.mipSwQ &&& ~~~r.midelegQ
    stvecQ := 0
    sscratchQ := 0
    sepcQ := 0
    scauseQ := 0
    stvalQ := 0 }

theorem update_bit : ∀ x k y d : Bool, (y && !d) = false →
    (((x && !k || y) && !d) = (x && !d) ↔ (x && k && !d) = false) := by
  decide

/-- An update that keeps `x` outside `k` keeps the part outside `d` as well exactly when
the part of `x` it drops lies in `d`. -/
theorem masked_update_iff (x k y d : BitVec 64) (hy : y &&& ~~~d = 0) :
    ((x &&& ~~~k) ||| y) &&& ~~~d = x &&& ~~~d ↔ x &&& k &&& ~~~d = 0 := by
  have hbit : ∀ j, j < 64 → ((((x &&& ~~~k) ||| y) &&& ~~~d).getLsbD j = (x &&& ~~~d).getLsbD j ↔
        (x &&& k &&& ~~~d).getLsbD j = (0 : BitVec 64).getLsbD j) := by
    intro j hj
    have hyj : (y &&& ~~~d).getLsbD j = (0 : BitVec 64).getLsbD j := by rw [hy]
    have hz : (0 : BitVec 64).getLsbD j = false := BitVec.getLsbD_zero
    simp only [getLsbD_and, getLsbD_or, getLsbD_not, hj, decide_true, Bool.true_and, hz] at hyj ⊢
    exact update_bit _ _ _ _ hyj
  rw [BitVec.eq_of_getLsbD_eq_iff, BitVec.eq_of_getLsbD_eq_iff]
  exact forall_congr' fun j => imp_congr_right fun hj => hbit j hj

/-- What is masked with `d` is absent outside it. -/
theorem masked_absent (v d m : BitVec 64) : v &&& d &&& m &&& ~~~d = 0 := by
  apply eq_of_getLsbD_eq
  intro j hj
  simp only [getLsbD_and, getLsbD_not]
  cases v.getLsbD j <;> cases d.getLsbD j <;> simp

theorem sstatus_machine (status value : BitVec 64) :
    ((status &&& ~~~sstatusRwMask) ||| (value &&& sstatusRwMask)) &&& ~~~sstatusRwMask =
      status &&& ~~~sstatusRwMask := by
  apply eq_of_getLsbD_eq
  intro j hj
  rw [getLsbD_and, getLsbD_and, getLsbD_not]
  cases hmask : sstatusRwMask.getLsbD j with
  | false => rw [sstatus_keeps status value hj hmask]
  | true => simp

/-- Addresses of a higher privilege differ from those of S-mode. -/
theorem not_machine_addr {addr other : BitVec 12} (hs : addr.extractLsb' 8 2 ≤ privS)
    (hm : privS < other.extractLsb' 8 2) : (addr == other) = false := by
  apply beq_eq_false_iff_ne.2
  rintro rfl
  exact absurd hm (BitVec.not_lt.2 hs)

/-- The views of `mie` and `mip` find nothing in the undelegated part they drop. -/
def KeepsUndelegated (r : TrapRegs) (addr : BitVec 12) (mask : BitVec 64) : Prop :=
  (addr = csrSie → r.mieQ &&& mipSMask &&& ~~~r.midelegQ = 0) ∧
    (addr = csrSip → r.mipSwQ &&& (mask &&& bitAt mipSsip) &&& ~~~r.midelegQ = 0)

/-- A write from S-mode keeps the machine-only registers exactly when it keeps the
undelegated bits. -/
theorem write_machine_iff {addr : BitVec 12} (hs : addr.extractLsb' 8 2 ≤ privS)
    (value mask : BitVec 64) :
    (r.write addr value mask).machine = r.machine ↔ r.KeepsUndelegated addr mask := by
  -- The machine-only addresses are out of reach.
  simp (disch := decide) only [write, not_machine_addr hs, if_low]
  by_cases hstatus : addr = csrSstatus
  · subst hstatus
    have heq : (r.mstatusQ &&& ~~~sstatusRwMask ||| value &&& sstatusRwMask) &&&
        ~~~sstatusRwMask = r.mstatusQ &&& ~~~sstatusRwMask := sstatus_machine _ _
    simp only [beq_self_eq_true, if_true, machine, heq, true_iff]
    exact ⟨fun h => absurd h (by decide), fun h => absurd h (by decide)⟩
  by_cases hsie : addr = csrSie
  · subst hsie
    have hiff := masked_update_iff r.mieQ mipSMask (value &&& r.midelegQ &&& mipSMask) r.midelegQ
      (masked_absent _ _ _)
    constructor
    · intro h
      exact ⟨fun _ => hiff.1 (congrArg TrapRegs.mieQ h), fun h => absurd h (by decide)⟩
    · intro h
      have hmie := hiff.2 (h.1 rfl)
      exact TrapRegs.ext rfl rfl rfl hmie rfl rfl rfl rfl rfl rfl rfl rfl rfl rfl rfl rfl
  by_cases hsip : addr = csrSip
  · subst hsip
    have hiff := masked_update_iff r.mipSwQ (mask &&& bitAt mipSsip)
      (value &&& mask &&& r.midelegQ &&& bitAt mipSsip) r.midelegQ (masked_absent _ _ _)
    constructor
    · intro h
      exact ⟨fun h => absurd h (by decide), fun _ => hiff.1 (congrArg TrapRegs.mipSwQ h)⟩
    · intro h
      have hmip := hiff.2 (h.2 rfl)
      exact TrapRegs.ext rfl rfl rfl rfl rfl rfl rfl rfl rfl hmip rfl rfl rfl rfl rfl rfl
  -- The other S-mode registers are blanked out of the machine-only part.
  have hkeep : r.KeepsUndelegated addr mask := ⟨fun h => absurd h hsie, fun h => absurd h hsip⟩
  refine ⟨fun _ => hkeep, fun _ => ?_⟩
  rw [if_neg (by simpa using hstatus), if_neg (by simpa using hsie)]
  by_cases hstvec : (addr == csrStvec)
  · rw [if_pos hstvec]
    rfl
  by_cases hsscratch : (addr == csrSscratch)
  · rw [if_neg hstvec, if_pos hsscratch]
    rfl
  by_cases hsepc : (addr == csrSepc)
  · rw [if_neg hstvec, if_neg hsscratch, if_pos hsepc]
    rfl
  by_cases hscause : (addr == csrScause)
  · rw [if_neg hstvec, if_neg hsscratch, if_neg hsepc, if_pos hscause]
    rfl
  by_cases hstval : (addr == csrStval)
  · rw [if_neg hstvec, if_neg hsscratch, if_neg hsepc, if_neg hscause, if_pos hstval]
    rfl
  · rw [if_neg hstvec, if_neg hsscratch, if_neg hsepc, if_neg hscause, if_neg hstval,
      if_neg (by simpa using hsip)]

end TrapRegs

end OpenRV64
