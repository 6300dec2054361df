/-
What the bit-serial update computes: whichever cycle it is in, the committed
bounds of every entry are those of the region its address register encodes.
-/
import OpenRV64.Pmp

namespace OpenRV64

open Napot

/-- The number of low byte-address bits outside the match of a NAPOT address register:
the grain forces the nine low bits of the register to one. -/
def napotLog (addr : BitVec 37) : ℕ := order 37 (addr ||| 0x1ff).toNat + 2

theorem napotLog_le (addr : BitVec 37) : napotLog addr ≤ 39 := Nat.add_le_add_right (order_le ..) 2

theorem grain_le_napotLog (addr : BitVec 37) : 12 ≤ napotLog addr := by
  have h : 9 + 1 ≤ order 37 (addr ||| 0x1ff).toNat := by
    apply le_order (by decide)
    intro j hj
    have hlow : ∀ j < 9, (0x1ff : BitVec 37).getLsbD j := by decide
    rw [BitVec.testBit_toNat, BitVec.getLsbD_or, hlow j hj, Bool.or_true]
  unfold napotLog
  omega

def napotBase (addr : BitVec 37) : ℕ := base (napotLog addr) (4 * addr.toNat)

/-- The region lies in the implemented physical address space. -/
theorem napotLimit_le (addr : BitVec 37) : napotBase addr + 2 ^ napotLog addr ≤ 2 ^ 39 := by
  have hbase : napotBase addr < 2 ^ 39 := (base_le ..).trans_lt (by have := addr.isLt; omega)
  have hsplit : 2 ^ 39 = 2 ^ (39 - napotLog addr) * 2 ^ napotLog addr := by
    rw [← Nat.pow_add, Nat.sub_add_cancel (napotLog_le addr)]
  unfold napotBase base at hbase ⊢
  rw [hsplit] at hbase ⊢
  rw [← Nat.succ_mul]
  exact Nat.mul_le_mul_right _ (Nat.lt_of_mul_lt_mul_right hbase)

namespace PmpState

variable {p : PmpParams} {s : PmpState p}

/-- The bounds of entry `e` are those of the region its address register encodes. -/
def Decoded (s : PmpState p) (e : Fin p.activeEntries) : Prop :=
  (s.regionLowQ e).toNat = napotBase (s.addrQ e) ∧
    (s.regionHighQ e).toNat = napotBase (s.addrQ e) + 2 ^ napotLog (s.addrQ e)

/-- The trailing-one scan: the bits scanned so far are ones, and the mask has two bits
more than that. -/
structure Scanning (s : PmpState p) : Prop where
  count : s.bitCountQ.toNat ≤ 36
  scan : s.scanQ = (s.pendingQ ||| 0x1ff) >>> s.bitCountQ.toNat
  ones : ∀ j, j < s.bitCountQ.toNat → (s.pendingQ ||| 0x1ff).toNat.testBit j = true
  mask : s.maskQ.toNat = 2 ^ (s.bitCountQ.toNat + 2) - 1
  address : s.addressQ = s.pendingQ ++ (0 : BitVec 2)

/-- The last byte of the region being computed, from which the high bound is the next. -/
def lastByte (s : PmpState p) : ℕ := napotBase s.pendingQ + 2 ^ napotLog s.pendingQ - 1

/-- The increment of the high bound: the bits added so far stand at the top of the work
register, and the source still holds the others. -/
structure Adding (s : PmpState p) : Prop where
  count : s.bitCountQ.toNat ≤ 39
  low : s.lowQ.toNat = napotBase s.pendingQ
  source : s.addSourceQ.toNat = s.lastByte / 2 ^ s.bitCountQ.toNat
  carry : s.addCarryQ = carryOut s.bitCountQ.toNat s.lastByte
  work : s.highWorkQ.toNat = (s.lastByte + 1) % 2 ^ s.bitCountQ.toNat * 2 ^ (40 - s.bitCountQ.toNat)

theorem lastByte_succ : s.lastByte + 1 = napotBase s.pendingQ + 2 ^ napotLog s.pendingQ := by
  have := Nat.two_pow_pos (napotLog s.pendingQ)
  unfold lastByte
  omega

theorem lastByte_lt : s.lastByte < 2 ^ 39 := by
  have h := napotLimit_le s.pendingQ
  rw [← lastByte_succ] at h
  omega

theorem toNat_address (addr : BitVec 37) : (addr ++ (0 : BitVec 2)).toNat = 4 * addr.toNat := by
  rw [BitVec.toNat_append]
  simp [Nat.shiftLeft_eq, Nat.mul_comm]

theorem startStep_scanning (i : PmpInput) : (s.startStep i).Scanning where
  count := by simp [startStep]
  scan := by simp [startStep]
  ones := by simp [startStep]
  mask := by simp [startStep]
  address := rfl

theorem Scanning.mask_next (h : s.Scanning) :
    s.scanMaskNext.toNat = 2 ^ (s.bitCountQ.toNat + 3) - 1 := by
  have hcnt := h.count
  have hpow : 2 ^ (s.bitCountQ.toNat + 3) ≤ 2 ^ 39 := Nat.pow_le_pow_right (by decide) (by omega)
  have hpos := Nat.two_pow_pos (s.bitCountQ.toNat + 2)
  have hsucc : 2 ^ (s.bitCountQ.toNat + 3) = 2 * 2 ^ (s.bitCountQ.toNat + 2) := by
    rw [Nat.pow_succ, Nat.mul_comm]
  have hdouble : s.maskQ.toNat <<< 1 = 2 * s.maskQ.toNat := by
    rw [Nat.shiftLeft_eq]
    omega
  have hor : ∀ x : ℕ, 2 * x ||| 1 = 2 * x + 1 := fun x =>
    (Nat.two_pow_add_eq_or_of_lt (i := 1) (b := 1) (by decide) x).symm
  rw [scanMaskNext, BitVec.toNat_or, BitVec.toNat_shiftLeft, hdouble,
    Nat.mod_eq_of_lt (by rw [h.mask]; omega), h.mask]
  rw [show (1 : BitVec 39).toNat = 1 from rfl, hor]
  omega

/-- The bit at which the scan stands is the lowest of its register. -/
theorem Scanning.bit (h : s.Scanning) :
    s.scanQ.getLsbD 0 = (s.pendingQ ||| 0x1ff).toNat.testBit s.bitCountQ.toNat := by
  rw [h.scan, BitVec.getLsbD_ushiftRight, Nat.add_zero, BitVec.testBit_toNat]

theorem Scanning.next (h : s.Scanning) (hbit : s.scanQ.getLsbD 0)
    (hcnt : s.bitCountQ ≠ 36) (hadd : s.addPhaseQ = false) :
    (s.scanStep).Scanning ∧ (s.scanStep).addPhaseQ = false := by
  have hle := h.count
  have hne : s.bitCountQ.toNat ≠ 36 := fun hc => hcnt (BitVec.eq_of_toNat_eq hc)
  have hsucc : (s.bitCountQ + 1).toNat = s.bitCountQ.toNat + 1 := by
    rw [BitVec.toNat_add, show (1 : BitVec 6).toNat = 1 from rfl]
    omega
  have hstep : s.scanStep =
      { s with
        scanQ := s.scanQ >>> 1
        maskQ := s.scanMaskNext
        bitCountQ := s.bitCountQ + 1 } := by
    rw [scanStep, hbit, beq_false_of_ne hcnt]
    rfl
  rw [hstep]
  refine ⟨⟨?_, ?_, ?_, ?_, h.address⟩, hadd⟩
  · show (s.bitCountQ + 1).toNat ≤ 36
    omega
  · rw [h.scan, hsucc, BitVec.shiftRight_add]
  · intro j hj
    rw [show ({ s with scanQ := _, maskQ := _, bitCountQ := _ } : PmpState p).bitCountQ =
      s.bitCountQ + 1 from rfl, hsucc] at hj
    rcases Nat.lt_succ_iff_lt_or_eq.mp hj with hj | rfl
    · exact h.ones j hj
    · exact h.bit ▸ hbit
  · rw [h.mask_next, hsucc]

/-- The scan stops at the first zero, or at the last bit: the mask then covers the region. -/
theorem Scanning.stop (h : s.Scanning) (hstop : s.scanQ.getLsbD 0 = false ∨ s.bitCountQ = 36) :
    (s.scanStep).Adding ∧ (s.scanStep).addPhaseQ := by
  have hle := h.count
  have hlog : napotLog s.pendingQ = s.bitCountQ.toNat + 3 := by
    unfold napotLog
    rw [order_of_run (k := s.bitCountQ.toNat) (by omega) h.ones]
    refine hstop.imp (fun hbit => h.bit ▸ hbit) (fun hc => ?_)
    rw [hc]
    rfl
  have hmask : s.scanMaskNext.toNat = 2 ^ napotLog s.pendingQ - 1 := by
    rw [h.mask_next, hlog]
  have haddress : s.addressQ.toNat = 4 * s.pendingQ.toNat := by
    rw [h.address, toNat_address]
  have hlow : (s.addressQ &&& ~~~s.scanMaskNext).toNat = napotBase s.pendingQ := by
    rw [toNat_and_not_mask hmask, haddress]
    rfl
  have hsrc : (s.addressQ ||| s.scanMaskNext).toNat = s.lastByte := by
    have hpos := Nat.two_pow_pos (napotLog s.pendingQ)
    rw [toNat_or_mask hmask, haddress, lastByte, napotBase]
    omega
  have hstep : s.scanStep =
      { s with
        lowQ := s.addressQ &&& ~~~s.scanMaskNext
        addSourceQ := (s.addressQ ||| s.scanMaskNext).setWidth 40
        highWorkQ := 0
        addCarryQ := true
        bitCountQ := 0
        addPhaseQ := true } := by
    rw [scanStep, if_pos]
    rcases hstop with hbit | hcnt
    · rw [hbit, Bool.not_false, Bool.true_or]
    · rw [hcnt, beq_self_eq_true, Bool.or_true]
  rw [hstep]
  refine ⟨⟨Nat.zero_le _, hlow, ?_, ?_, ?_⟩, rfl⟩
  · show ((s.addressQ ||| s.scanMaskNext).setWidth 40).toNat = s.lastByte / 2 ^ 0
    rw [BitVec.toNat_setWidth, hsrc, Nat.pow_zero, Nat.div_one]
    have := s.lastByte_lt
    omega
  · exact (decide_eq_true (Nat.mod_one s.lastByte)).symm
  · show 0 = (s.lastByte + 1) % 2 ^ 0 * 2 ^ 40
    rw [Nat.pow_zero, Nat.mod_one, Nat.zero_mul]

theorem Adding.bit (h : s.Adding) :
    s.addSourceQ.getLsbD 0 = s.lastByte.testBit s.bitCountQ.toNat := by
  rw [← BitVec.testBit_toNat, h.source, Nat.testBit_div_two_pow, Nat.zero_add]

/-- One more bit of the sum enters at the top of the work register. -/
theorem Adding.high_next (h : s.Adding) :
    s.highNext.toNat = (s.lastByte + 1) % 2 ^ (s.bitCountQ.toNat + 1) *
      2 ^ (39 - s.bitCountQ.toNat) := by
  have hcnt := h.count
  have hwork : s.highWorkQ.toNat / 2 =
      (s.lastByte + 1) % 2 ^ s.bitCountQ.toNat * 2 ^ (39 - s.bitCountQ.toNat) := by
    rw [h.work, show 40 - s.bitCountQ.toNat = 39 - s.bitCountQ.toNat + 1 by omega,
      Nat.pow_succ, ← Nat.mul_assoc, Nat.mul_div_cancel _ (by decide)]
  have htop : 2 ^ s.bitCountQ.toNat * 2 ^ (39 - s.bitCountQ.toNat) = 2 ^ 39 := by
    rw [← Nat.pow_add, Nat.add_sub_cancel' hcnt]
  have hhalf : (s.highWorkQ.extractLsb' 1 39).toNat = s.highWorkQ.toNat / 2 := by
    have := s.highWorkQ.isLt
    rw [BitVec.extractLsb'_toNat, Nat.shiftRight_eq_div_pow]
    omega
  rw [succ_mod_succ, ← h.bit, ← h.carry, Nat.add_mul, ← hwork, highNext,
    BitVec.toNat_append, hhalf, Nat.shiftLeft_eq, Nat.mul_comm (2 ^ s.bitCountQ.toNat),
    Nat.mul_assoc, htop, BitVec.toNat_ofBool, ← addSum]
  rw [Nat.mul_comm, ← Nat.two_pow_add_eq_or_of_lt (by have := s.highWorkQ.isLt; omega)]
  omega

theorem Adding.next (h : s.Adding) (hcnt : s.bitCountQ ≠ 39) (hadd : s.addPhaseQ) :
    (s.addStep).Adding ∧ (s.addStep).addPhaseQ := by
  have hle := h.count
  have hne : s.bitCountQ.toNat ≠ 39 := fun hc => hcnt (BitVec.eq_of_toNat_eq hc)
  have hsucc : (s.bitCountQ + 1).toNat = s.bitCountQ.toNat + 1 := by
    rw [BitVec.toNat_add, show (1 : BitVec 6).toNat = 1 from rfl]
    omega
  have hstep : s.addStep =
      { s with
        addSourceQ := s.addSourceQ >>> 1
        highWorkQ := s.highNext
        addCarryQ := s.addCarryNext
        bitCountQ := s.bitCountQ + 1 } := by
    rw [addStep, beq_false_of_ne hcnt]
    rfl
  rw [hstep]
  refine ⟨⟨?_, h.low, ?_, ?_, ?_⟩, hadd⟩
  · show (s.bitCountQ + 1).toNat ≤ 39
    omega
  · show (s.addSourceQ >>> 1).toNat = s.lastByte / 2 ^ (s.bitCountQ + 1).toNat
    rw [BitVec.toNat_ushiftRight, h.source, hsucc, Nat.shiftRight_eq_div_pow,
      Nat.div_div_eq_div_mul, ← Nat.pow_add]
  · show s.addCarryNext = carryOut (s.bitCountQ + 1).toNat s.lastByte
    rw [hsucc, carryOut_succ, ← h.bit, ← h.carry, addCarryNext]
  · show s.highNext.toNat = (s.lastByte + 1) % 2 ^ (s.bitCountQ + 1).toNat *
      2 ^ (40 - (s.bitCountQ + 1).toNat)
    rw [h.high_next, hsucc, show 40 - (s.bitCountQ.toNat + 1) = 39 - s.bitCountQ.toNat by omega]

/-- After the last bit the work register holds the whole sum. -/
theorem Adding.high (h : s.Adding) (hcnt : s.bitCountQ = 39) :
    s.highNext.toNat = napotBase s.pendingQ + 2 ^ napotLog s.pendingQ := by
  have hlimit := napotLimit_le s.pendingQ
  rw [h.high_next, lastByte_succ, hcnt, show (39 : BitVec 6).toNat = 39 from rfl,
    Nat.mod_eq_of_lt (hlimit.trans_lt (by decide))]
  exact Nat.mul_one _

/-- The state with a completed address write acknowledged. -/
def settled (s : PmpState p) : PmpState p := { s with doneQ := false }

theorem settled_eq (i : PmpInput) :
    ({ s with doneQ := if !i.csrWriteI || s.doneQ then false else s.doneQ } : PmpState p) =
      s.settled := by
  cases s.doneQ <;> cases i.csrWriteI <;> rfl

/-- What one clock edge does: a cycle of the scan or of the increment, the start of an
address write, a configuration write, or nothing but the acknowledgement. -/
theorem step_cases (s : PmpState p) (i : PmpInput) :
    (s.busyQ ∧ s.addPhaseQ = false ∧ s.step i = s.settled.scanStep) ∨
    (s.busyQ ∧ s.addPhaseQ ∧ s.step i = s.settled.addStep) ∨
    (s.pmpaddrStart i ∧ s.step i = s.settled.startStep i) ∨
    (s.busyQ = false ∧ i.csrWriteI ∧ s.doneQ = false ∧
      ((i.csrAddrI = csrPmpcfg0 ∧ s.step i = s.settled.cfgStep i 0) ∨
        (i.csrAddrI = csrPmpcfg2 ∧ s.step i = s.settled.cfgStep i 8))) ∨
    (s.busyQ = false ∧ s.pmpaddrStart i = false ∧
      (i.csrWriteI → s.doneQ = false → i.csrAddrI ≠ csrPmpcfg0 ∧ i.csrAddrI ≠ csrPmpcfg2) ∧
      s.step i = s.settled) := by
  have hstep : s.step i =
      if s.busyQ then
        if !s.addPhaseQ then s.settled.scanStep else s.settled.addStep
      else if s.pmpaddrStart i then s.settled.startStep i
      else if i.csrWriteI && !s.doneQ && i.csrAddrI == csrPmpcfg0 then s.settled.cfgStep i 0
      else if i.csrWriteI && !s.doneQ && i.csrAddrI == csrPmpcfg2 then s.settled.cfgStep i 8
      else s.settled := by
    rw [← settled_eq i]
    rfl
  rw [hstep]
  cases hbsy : s.busyQ with
  | true =>
    cases hadd : s.addPhaseQ with
    | false => exact .inl ⟨rfl, rfl, rfl⟩
    | true => exact .inr (.inl ⟨rfl, rfl, rfl⟩)
  | false =>
  cases hstart : s.pmpaddrStart i with
  | true => exact .inr (.inr (.inl ⟨rfl, rfl⟩))
  | false =>
    refine .inr (.inr (.inr ?_))
    cases hwr : i.csrWriteI with
    | false => exact .inr ⟨rfl, rfl, by simp, rfl⟩
    | true =>
    cases hdone : s.doneQ with
    | true => exact .inr ⟨rfl, rfl, by simp, rfl⟩
    | false =>
    by_cases h0 : i.csrAddrI = csrPmpcfg0
    · exact .inl ⟨rfl, rfl, rfl, .inl ⟨h0, by simp [h0]⟩⟩
    by_cases h2 : i.csrAddrI = csrPmpcfg2
    · exact .inl ⟨rfl, rfl, rfl, .inr ⟨h2, by simp [h2]⟩⟩
    · refine .inr ⟨rfl, rfl, fun _ _ => ⟨h0, h2⟩, ?_⟩
      rw [beq_false_of_ne h0, beq_false_of_ne h2]
      rfl

/-- An address write in progress, and the phase it is in. -/
def Progress (s : PmpState p) : Prop :=
  if s.addPhaseQ then s.Adding else s.Scanning

/-- What every reachable state keeps. -/
structure Sound (s : PmpState p) : Prop where
  decoded : ∀ e, s.Decoded e
  readable : ∀ e, cfgW (s.cfgQ e) = true → cfgR (s.cfgQ e) = true
  progress : s.busyQ = true → s.Progress
  exclusive : s.busyQ = true → s.doneQ = false
  target : s.busyQ = true ∨ s.doneQ = true →
    ∃ e : Fin p.activeEntries, e.val = s.entryQ.toNat ∧ cfgL (s.cfgQ e) = false
  committed : s.doneQ = true → ∀ e : Fin p.activeEntries, e.val = s.entryQ.toNat →
    s.addrQ e = s.pendingQ

theorem settled_scanning (h : s.Scanning) : s.settled.Scanning :=
  ⟨h.count, h.scan, h.ones, h.mask, h.address⟩

theorem settled_adding (h : s.Adding) : s.settled.Adding :=
  ⟨h.count, h.low, h.source, h.carry, h.work⟩

/-- The registers that only a commit or a configuration write changes. -/
structure SameEntries (s s' : PmpState p) : Prop where
  cfg : s'.cfgQ = s.cfgQ
  addr : s'.addrQ = s.addrQ
  low : s'.regionLowQ = s.regionLowQ
  high : s'.regionHighQ = s.regionHighQ

theorem scanStep_same (s : PmpState p) : SameEntries s s.scanStep := by
  unfold scanStep
  split
  · exact ⟨rfl, rfl, rfl, rfl⟩
  · exact ⟨rfl, rfl, rfl, rfl⟩

theorem scanStep_control (s : PmpState p) :
    s.scanStep.busyQ = s.busyQ ∧ s.scanStep.doneQ = s.doneQ ∧
      s.scanStep.entryQ = s.entryQ ∧ s.scanStep.pendingQ = s.pendingQ := by
  unfold scanStep
  split
  · exact ⟨rfl, rfl, rfl, rfl⟩
  · exact ⟨rfl, rfl, rfl, rfl⟩

theorem addStep_shift (hcnt : s.bitCountQ ≠ 39) :
    SameEntries s s.addStep ∧ s.addStep.busyQ = s.busyQ ∧ s.addStep.doneQ = s.doneQ ∧
      s.addStep.entryQ = s.entryQ ∧ s.addStep.pendingQ = s.pendingQ := by
  rw [addStep, beq_false_of_ne hcnt]
  exact ⟨⟨rfl, rfl, rfl, rfl⟩, rfl, rfl, rfl, rfl⟩

theorem addStep_commit (hcnt : s.bitCountQ = 39) : s.addStep =
      { s with
        addSourceQ := s.addSourceQ >>> 1
        highWorkQ := s.highNext
        addCarryQ := s.addCarryNext
        addrQ := fun e => if e.val = s.entryQ.toNat then s.pendingQ else s.addrQ e
        regionLowQ := fun e => if e.val = s.entryQ.toNat then s.lowQ else s.regionLowQ e
        regionHighQ := fun e =>
          if e.val = s.entryQ.toNat then s.highNext else s.regionHighQ e
        busyQ := false
        addPhaseQ := false
        doneQ := true } := by
  rw [addStep, hcnt]
  rfl

theorem SameEntries.decoded {s' : PmpState p} (h : SameEntries s s')
    (hd : ∀ e, s.Decoded e) (e : Fin p.activeEntries) : s'.Decoded e := by
  unfold Decoded
  rw [h.low, h.high, h.addr]
  exact hd e

/-- Registers that a cycle of the scan or of the increment leaves alone keep the invariant,
when the phase itself is kept. -/
theorem Sound.of_same {s' : PmpState p} (h : s.Sound) (hsame : SameEntries s s')
    (hbsy : s.busyQ) (hdone : s'.doneQ = false) (hent : s'.entryQ = s.entryQ)
    (hprogress : s'.Progress) : s'.Sound where
  decoded := hsame.decoded h.decoded
  readable e := by
    rw [hsame.cfg]
    exact h.readable e
  progress _ := hprogress
  exclusive _ := hdone
  target _ := by
    rw [hsame.cfg, hent]
    exact h.target (.inl hbsy)
  committed hd := by
    rw [hdone] at hd
    cases hd

theorem Sound.scan_step (h : s.Sound) (hbsy : s.busyQ) (hadd : s.addPhaseQ = false) :
    s.settled.scanStep.Sound := by
  have hscan : s.settled.Scanning := by
    have hp := h.progress hbsy
    rw [Progress, hadd] at hp
    exact settled_scanning hp
  obtain ⟨-, hdone, hent, -⟩ := scanStep_control s.settled
  have hs := scanStep_same s.settled
  refine h.of_same ⟨hs.cfg, hs.addr, hs.low, hs.high⟩ hbsy hdone hent ?_
  by_cases hstop : s.settled.scanQ.getLsbD 0 = false ∨ s.settled.bitCountQ = 36
  · obtain ⟨hadding, hph⟩ := hscan.stop hstop
    rw [Progress, hph]
    exact hadding
  · rw [not_or, Bool.not_eq_false] at hstop
    obtain ⟨hscanning, hph⟩ := hscan.next hstop.1 hstop.2 hadd
    rw [Progress, hph]
    exact hscanning

theorem Sound.add_step (h : s.Sound) (hbsy : s.busyQ) (hadd : s.addPhaseQ) :
    s.settled.addStep.Sound := by
  have hadding : s.settled.Adding := by
    have hp := h.progress hbsy
    rw [Progress, hadd] at hp
    exact settled_adding hp
  by_cases hcnt : s.settled.bitCountQ = 39
  · have hhigh := hadding.high hcnt
    rw [addStep_commit hcnt]
    refine ⟨fun e => ?_, h.readable, fun hb => absurd_low hb,
      fun hb => absurd_low hb, fun _ => h.target (.inl hbsy), fun _ e he => if_pos he⟩
    by_cases he : e.val = s.entryQ.toNat
    · simp only [Decoded, settled, he, if_true]
      exact ⟨hadding.low, hhigh⟩
    · simp only [Decoded, settled, he, if_false]
      exact h.decoded e
  obtain ⟨hs, -, hdone, hent, -⟩ := addStep_shift hcnt
  obtain ⟨hnxt, hph⟩ := hadding.next hcnt hadd
  refine h.of_same ⟨hs.cfg, hs.addr, hs.low, hs.high⟩ hbsy hdone hent ?_
  rw [Progress, hph]
  exact hnxt

theorem csrPmpaddrLocked_eq {i : PmpInput} {e : Fin p.activeEntries}
    (he : i.csrPmpaddrEntry.toNat = e.val) : s.csrPmpaddrLocked i = cfgL (s.cfgQ e) := by
  cases hl : cfgL (s.cfgQ e) with
  | true =>
    apply List.any_eq_true.mpr
    exact ⟨e, List.mem_finRange e, by rw [decide_eq_true he, hl]; rfl⟩
  | false =>
    apply List.any_eq_false.mpr
    intro e' _ hboth
    rw [Bool.and_eq_true, decide_eq_true_eq, he] at hboth
    rw [Fin.eq_of_val_eq hboth.1, hboth.2] at hl
    exact absurd hl (by decide)

/-- An address write starts on an active, unlocked entry while the unit is idle. -/
theorem pmpaddrStart_iff {i : PmpInput} :
    s.pmpaddrStart i ↔ i.csrWriteI ∧ i.csrPmpaddrMatch ∧ s.busyQ = false ∧ s.doneQ = false ∧
        ∃ e : Fin p.activeEntries, i.csrPmpaddrEntry.toNat = e.val ∧ cfgL (s.cfgQ e) = false := by
  simp only [pmpaddrStart, PmpInput.csrPmpaddrActive, Bool.and_eq_true, Bool.not_eq_true',
    decide_eq_true_eq]
  constructor
  · rintro ⟨⟨⟨⟨hwr, hmat, hlt⟩, hlock⟩, hbsy⟩, hdone⟩
    refine ⟨hwr, hmat, hbsy, hdone, ⟨_, hlt⟩, rfl, ?_⟩
    rwa [csrPmpaddrLocked_eq (e := ⟨_, hlt⟩) rfl] at hlock
  · rintro ⟨hwr, hmat, hbsy, hdone, e, he, hlock⟩
    refine ⟨⟨⟨⟨hwr, hmat, he ▸ e.isLt⟩, ?_⟩, hbsy⟩, hdone⟩
    rw [csrPmpaddrLocked_eq he, hlock]

theorem Sound.start_step {i : PmpInput} (h : s.Sound) (hstart : s.pmpaddrStart i) :
    (s.settled.startStep i).Sound where
  decoded := h.decoded
  readable := h.readable
  progress _ := startStep_scanning i
  exclusive _ := rfl
  target _ := by
    obtain ⟨-, -, -, -, e, he, hlock⟩ := pmpaddrStart_iff.mp hstart
    exact ⟨e, he.symm, hlock⟩
  committed hd := absurd_low hd

theorem Sound.cfg_step {i : PmpInput} (first : ℕ) (h : s.Sound) (hbsy : s.busyQ = false) :
    (s.settled.cfgStep i first).Sound where
  decoded := h.decoded
  readable e := by
    simp only [cfgStep]
    split
    · rw [cfgW_warl, cfgR_warl, Bool.and_eq_true]
      exact And.right
    · exact h.readable e
  progress hb := absurd_low (hbsy.symm.trans hb)
  exclusive _ := rfl
  target hb := by
    rcases hb with hb | hb
    · exact absurd_low (hbsy.symm.trans hb)
    · cases hb
  committed hd := absurd_low hd

theorem Sound.settled (h : s.Sound) (hbsy : s.busyQ = false) : s.settled.Sound where
  decoded := h.decoded
  readable := h.readable
  progress hb := absurd_low (hbsy.symm.trans hb)
  exclusive _ := rfl
  target hb := by
    rcases hb with hb | hb
    · exact absurd_low (hbsy.symm.trans hb)
    · cases hb
  committed hd := absurd_low hd

theorem Sound.step (h : s.Sound) (i : PmpInput) : (s.step i).Sound := by
  rcases s.step_cases i with ⟨hbsy, hadd, heq⟩ | ⟨hbsy, hadd, heq⟩ | ⟨hstart, heq⟩ |
    ⟨hbsy, -, -, ⟨-, heq⟩ | ⟨-, heq⟩⟩ | ⟨hbsy, -, -, heq⟩
  · exact heq ▸ h.scan_step hbsy hadd
  · exact heq ▸ h.add_step hbsy hadd
  · exact heq ▸ h.start_step hstart
  · exact heq ▸ h.cfg_step 0 hbsy
  · exact heq ▸ h.cfg_step 8 hbsy
  · exact heq ▸ h.settled hbsy

theorem reset_sound : (reset : PmpState p).Sound where
  decoded e := by
    have hlog : napotLog 0 = 12 := by decide +kernel
    have hbase : napotBase 0 = 0 := by
      rw [napotBase, hlog]
      rfl
    simp only [Decoded, reset]
    rw [hbase, hlog]
    exact ⟨rfl, rfl⟩
  readable e he := absurd he (by simp [reset, cfgW])
  progress hb := absurd_low hb
  exclusive _ := rfl
  target hb := by
    rcases hb with hb | hb
    · cases hb
    · cases hb
  committed hd := absurd_low hd

variable {env : Sync.Past (PmpState p) PmpInput → PmpState p → PmpInput → Prop}
  {past : Sync.Past (PmpState p) PmpInput}

theorem sound_of_run (hrun : Sync.Run (pmpCircuit p) env past s) : s.Sound := by
  apply hrun.stateInvariant
  · rintro s rfl
    exact reset_sound
  · exact fun _ _ i _ h => h.step i

/-- The configuration, the address and the bounds of one entry. -/
structure SameEntry (s s' : PmpState p) (e : Fin p.activeEntries) : Prop where
  cfg : s'.cfgQ e = s.cfgQ e
  addr : s'.addrQ e = s.addrQ e
  low : s'.regionLowQ e = s.regionLowQ e
  high : s'.regionHighQ e = s.regionHighQ e

theorem SameEntries.entry {s' : PmpState p} (h : SameEntries s s')
    (e : Fin p.activeEntries) : SameEntry s s' e :=
  ⟨congrFun h.cfg e, congrFun h.addr e, congrFun h.low e, congrFun h.high e⟩

theorem cfgStep_locked {i : PmpInput} {first : ℕ} {e : Fin p.activeEntries}
    (hlock : cfgL (s.cfgQ e)) : SameEntry s (s.settled.cfgStep i first) e := by
  refine ⟨if_neg ?_, rfl, rfl, rfl⟩
  rintro ⟨-, -, hopen⟩
  rw [show s.settled.cfgQ e = s.cfgQ e from rfl, hlock] at hopen
  exact absurd hopen (by decide)

theorem Sound.step_locked (h : s.Sound) (i : PmpInput) {e : Fin p.activeEntries}
    (hlock : cfgL (s.cfgQ e)) : SameEntry s (s.step i) e := by
  rcases s.step_cases i with ⟨-, -, heq⟩ | ⟨hbsy, -, heq⟩ | ⟨-, heq⟩ |
    ⟨-, -, -, ⟨-, heq⟩ | ⟨-, heq⟩⟩ | ⟨-, -, -, heq⟩
  · have hs := (scanStep_same s.settled).entry e
    exact heq ▸ ⟨hs.cfg, hs.addr, hs.low, hs.high⟩
  · by_cases hcnt : s.settled.bitCountQ = 39
    · obtain ⟨t, ht, hopen⟩ := h.target (.inl hbsy)
      have hne : e.val ≠ s.settled.entryQ.toNat := by
        intro he
        rw [Fin.eq_of_val_eq (he.trans ht.symm), hopen] at hlock
        cases hlock
      rw [heq, addStep_commit hcnt]
      exact ⟨rfl, if_neg hne, if_neg hne, if_neg hne⟩
    · have hs := (addStep_shift hcnt).1.entry e
      exact heq ▸ ⟨hs.cfg, hs.addr, hs.low, hs.high⟩
  · exact heq ▸ ⟨rfl, rfl, rfl, rfl⟩
  · exact heq ▸ cfgStep_locked hlock
  · exact heq ▸ cfgStep_locked hlock
  · exact heq ▸ ⟨rfl, rfl, rfl, rfl⟩

/-- A locked entry stays as it is until reset. -/
theorem locked_of_run (hrun : Sync.Run (pmpCircuit p) env past s) {x : PmpState p × PmpInput}
    (hx : x ∈ past) {e : Fin p.activeEntries} (hlock : cfgL (x.1.cfgQ e)) : SameEntry x.1 s e := by
  induction hrun with
  | reset _ => cases hx
  | cycle i hrun _ ih =>
    have hsound := sound_of_run hrun
    rcases List.mem_cons.mp hx with rfl | hx
    · exact hsound.step_locked i hlock
    · have hold := ih hx
      have hnew := hsound.step_locked i (hold.cfg ▸ hlock)
      exact ⟨hnew.cfg.trans hold.cfg, hnew.addr.trans hold.addr, hnew.low.trans hold.low,
        hnew.high.trans hold.high⟩

end PmpState

end OpenRV64
