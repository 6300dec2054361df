/-
The register map of the one-wide dispatch, `openrv64_dispatch_reg_map`: how many instructions
in flight read and write each register, and what an instruction in decode has to wait for.
-/
import OpenRV64.DecodeExact

namespace OpenRV64

open Option (map_some getD_some)

/-- The registers of an instruction. -/
structure RegUse where
  usesRs1 : Bool
  usesRs2 : Bool
  rs1 : BitVec 5
  rs2 : BitVec 5
  regWrite : Bool
  rd : BitVec 5
deriving DecidableEq, Repr

namespace RegUse

/-- What the decoder says of the registers of a word. -/
def ofDecode (d : DecodeTop) : RegUse :=
  ⟨d.usesRs1, d.usesRs2, d.rs1Addr, d.rs2Addr, d.regWrite, d.rdAddr⟩

variable (u : RegUse)

/-- The instruction writes `r`, and `r` is not `x0`. -/
def writes (r : BitVec 5) : Bool := u.regWrite && u.rd == r && r != 0

/-- The instruction reads `r`, and `r` is not `x0`. -/
def reads (r : BitVec 5) : Bool :=
  r != 0 && ((u.usesRs1 && u.rs1 == r) || (u.usesRs2 && u.rs2 == r))

end RegUse

/-- `READ_COUNT_MAX` and `WRITE_COUNT_MAX`. -/
abbrev regCountMax : ℕ := 15

structure RegMapState where
  readCountQ : BitVec 5 → ℕ
  writeCountQ : BitVec 5 → ℕ

/-- The inputs of a cycle.  `allocI` is the instruction in decode when `alloc_valid_i` is up,
`retireI` and `rollbackI` what gives its reservations back, and the forwarding marks are the
registers of the two one-hot vectors. -/
structure RegMapInput where
  clearI : Bool
  allocI : Option RegUse
  allocFireI : Bool
  forwardExI : Option (BitVec 5)
  forwardMemI : Option (BitVec 5)
  retireI : Option RegUse
  rollbackI : Option RegUse

/-- A guarded decrement. -/
def countDrop (count : ℕ) (release : Bool) : ℕ :=
  if release && count != 0 then count - 1 else count

/-- A guarded increment. -/
def countTake (count : ℕ) (reserve : Bool) : ℕ :=
  if reserve && count != regCountMax then count + 1 else count

/-- Some instruction is there, and it has the property. -/
def RegUse.is (u : Option RegUse) (f : RegUse → Bool) : Bool := (u.map f).getD false

namespace RegMapState

variable (enableForwarding : Bool) (s : RegMapState) (i : RegMapInput)

/-- `read_count_after_releases`. -/
def readAfterReleases (r : BitVec 5) : ℕ :=
  let drop (count : ℕ) (u : Option RegUse) : ℕ :=
    countDrop (countDrop count (RegUse.is u fun u => u.usesRs1 && u.rs1 == r))
      (RegUse.is u fun u => u.usesRs2 && u.rs2 == r)
  if r == 0 then 0 else drop (drop (s.readCountQ r) i.retireI) i.rollbackI

/-- `write_count_after_releases`. -/
def writeAfterReleases (r : BitVec 5) : ℕ :=
  let drop (count : ℕ) (u : Option RegUse) : ℕ :=
    countDrop count (RegUse.is u fun u => u.regWrite && u.rd == r)
  if r == 0 then 0 else drop (drop (s.writeCountQ r) i.retireI) i.rollbackI

/-- `rs1_forwardable` and `rs2_forwardable`: one writer is left, and one of the two stages
offers its value. -/
def forwardable (r : BitVec 5) : Bool :=
  enableForwarding && s.writeAfterReleases i r == 1 &&
    ((i.forwardMemI == some r) != (i.forwardExI == some r))

/-- A source that has to wait. -/
def rawBlocked (r : BitVec 5) : Bool :=
  s.writeAfterReleases i r != 0 && !s.forwardable enableForwarding i r

def rawHazardO : Bool :=
  RegUse.is i.allocI fun u =>
    (u.usesRs1 && u.rs1 != 0 && s.rawBlocked enableForwarding i u.rs1) ||
      (u.usesRs2 && u.rs2 != 0 && s.rawBlocked enableForwarding i u.rs2)

/-- The marks of earlier lanes, `alloc_read_hot_i`, are tied to zero. -/
def warHazardO : Bool :=
  RegUse.is i.allocI fun u =>
    !enableForwarding && u.regWrite && u.rd != 0 && s.readAfterReleases i u.rd != 0

def wawHazardO : Bool :=
  RegUse.is i.allocI fun u =>
    u.regWrite && u.rd != 0 &&
      if enableForwarding then s.writeAfterReleases i u.rd == regCountMax
      else s.writeAfterReleases i u.rd != 0

/-- `alloc_read_count_for_addr`. -/
def allocReads (u : RegUse) (r : BitVec 5) : ℕ :=
  if r == 0 then 0
  else (if u.usesRs1 && u.rs1 == r then 1 else 0) + if u.usesRs2 && u.rs2 == r then 1 else 0

def readFullHazardO : Bool :=
  RegUse.is i.allocI fun u =>
    (u.usesRs1 && u.rs1 != 0 &&
        decide (regCountMax < s.readAfterReleases i u.rs1 + allocReads u u.rs1)) ||
      (u.usesRs2 && u.rs2 != 0 &&
        decide (regCountMax < s.readAfterReleases i u.rs2 + allocReads u u.rs2))

def canAllocateO : Bool :=
  !(s.rawHazardO enableForwarding i || s.warHazardO enableForwarding i ||
    s.wawHazardO enableForwarding i || s.readFullHazardO i)

/-- The instruction that enters. -/
def allocated : Option RegUse := if i.allocFireI then i.allocI else none

def step : RegMapState :=
  if i.clearI then ⟨fun _ => 0, fun _ => 0⟩
  else
    { readCountQ := fun r =>
        if r == 0 then 0
        else
          countTake
            (countTake (s.readAfterReleases i r)
              (RegUse.is (allocated i) fun u => u.usesRs1 && u.rs1 == r))
            (RegUse.is (allocated i) fun u => u.usesRs2 && u.rs2 == r)
      writeCountQ := fun r =>
        if r == 0 then 0
        else
          countTake (s.writeAfterReleases i r)
            (RegUse.is (allocated i) fun u => u.regWrite && u.rd == r) }

def reset : RegMapState := ⟨fun _ => 0, fun _ => 0⟩

variable {enableForwarding s i} {r : BitVec 5} {u : RegUse}

/-! ### What the map promises of an instruction that enters -/

/-- Without a forwarding stage every writer of the source has given its reservation back;
with one at most one is left, and one stage alone offers its value. -/
theorem source_of_canAllocate (hcan : s.canAllocateO enableForwarding i)
    (hu : i.allocI = some u) (hreads : u.reads r) :
    s.writeAfterReleases i r = 0 ∨ enableForwarding ∧ s.writeAfterReleases i r = 1 ∧
        (i.forwardExI = some r ∨ i.forwardMemI = some r) := by
  have hraw : s.rawHazardO enableForwarding i = false := by
    simp only [canAllocateO, Bool.not_eq_true', Bool.or_eq_false_iff] at hcan
    exact hcan.1.1.1
  have hfree : s.rawBlocked enableForwarding i r = false := by
    by_contra hblocked
    have hblocked' : s.rawBlocked enableForwarding i r := by simpa using hblocked
    have hhazard : s.rawHazardO enableForwarding i := by
      simp only [RegUse.reads, Bool.and_eq_true, Bool.or_eq_true, bne_iff_ne, ne_eq,
        beq_iff_eq] at hreads
      obtain ⟨hr, hsrc⟩ := hreads
      have hne : (r != 0) := bne_iff_ne.mpr hr
      rw [rawHazardO, RegUse.is, hu, map_some, getD_some, Bool.or_eq_true]
      obtain ⟨hu1, rfl⟩ | ⟨hu2, rfl⟩ := hsrc
      · exact .inl (by rw [hu1, hne, hblocked']; rfl)
      · exact .inr (by rw [hu2, hne, hblocked']; rfl)
    rw [hraw] at hhazard
    cases hhazard
  rw [rawBlocked, Bool.and_eq_false_iff] at hfree
  obtain hz | hfwd := hfree
  · exact .inl (by simpa using hz)
  have hfwd' : s.forwardable enableForwarding i r := by simpa using hfwd
  simp only [forwardable, Bool.and_eq_true, beq_iff_eq] at hfwd'
  obtain ⟨⟨hen, hone⟩, hmarks⟩ := hfwd'
  refine .inr ⟨hen, hone, ?_⟩
  by_contra hneither
  rw [not_or] at hneither
  simp [hneither.1, hneither.2] at hmarks

/-! ### The count of writers -/

theorem countTake_of_lt {count : ℕ} {reserve : Bool} (h : count < regCountMax) :
    countTake count reserve = count + reserve.toNat := by
  cases reserve
  · rfl
  · have hne : (count != regCountMax) := bne_iff_ne.mpr (Nat.ne_of_lt h)
    simp only [countTake, hne, Bool.and_self, if_true, Bool.toNat_true]

theorem countDrop_of_le {count : ℕ} {release : Bool} (h : release.toNat ≤ count) :
    countDrop count release = count - release.toNat := by
  cases release
  · rfl
  · have hne : (count != 0) := bne_iff_ne.mpr (Nat.one_le_iff_ne_zero.mp h)
    simp only [countDrop, hne, Bool.and_self, if_true, Bool.toNat_true]

/-- How many writers of `r` an instruction is. -/
def writers (u : Option RegUse) (r : BitVec 5) : ℕ := (RegUse.is u (·.writes r)).toNat

theorem writers_le (u : Option RegUse) (r : BitVec 5) : writers u r ≤ 1 := Bool.toNat_le _

theorem writers_some (u : RegUse) (r : BitVec 5) : writers (some u) r = (u.writes r).toNat := rfl

theorem writers_map_congr {α : Type} {o : Option α} {f g : α → RegUse}
    (h : ∀ x, (f x).writes r = (g x).writes r) : writers (o.map f) r = writers (o.map g) r := by
  cases o with
  | none => rfl
  | some x => rw [map_some, map_some, writers_some, writers_some, h]

theorem is_writes (u : Option RegUse) (hr : r ≠ 0) :
    (RegUse.is u fun u => u.regWrite && u.rd == r).toNat = writers u r := by
  cases u with
  | none => rfl
  | some u =>
    have hne : (r != 0) := bne_iff_ne.mpr hr
    rw [writers, RegUse.is, RegUse.is, map_some, map_some, getD_some,
      getD_some, RegUse.writes, hne, Bool.and_true]

/-- What is left of a count once the instruction that retires has given its share back. -/
theorem writeAfterReleases_eq (hr : r ≠ 0) (hrollback : i.rollbackI = none)
    (hle : writers i.retireI r ≤ s.writeCountQ r) :
    s.writeAfterReleases i r = s.writeCountQ r - writers i.retireI r := by
  have hne : (r == 0) = false := beq_eq_false_iff_ne.mpr hr
  have hafter : s.writeAfterReleases i r = countDrop
      (countDrop (s.writeCountQ r) (RegUse.is i.retireI fun u => u.regWrite && u.rd == r))
      (RegUse.is i.rollbackI fun u => u.regWrite && u.rd == r) := by
    rw [writeAfterReleases, hne]
    rfl
  have hdrop : countDrop (s.writeCountQ r) (RegUse.is i.retireI fun u => u.regWrite && u.rd == r) =
        s.writeCountQ r - writers i.retireI r := by
    rw [countDrop_of_le (by rwa [is_writes _ hr]), is_writes _ hr]
  rw [hafter, hdrop, hrollback]
  rfl

theorem writeCountQ_step (hr : r ≠ 0) (hclr : i.clearI = false)
    (hrollback : i.rollbackI = none) (hle : writers i.retireI r ≤ s.writeCountQ r)
    (hlt : s.writeCountQ r < regCountMax) :
    (s.step i).writeCountQ r = s.writeCountQ r - writers i.retireI r + writers (allocated i) r := by
  have hne : (r == 0) = false := beq_eq_false_iff_ne.mpr hr
  have hafter := writeAfterReleases_eq hr hrollback hle
  have hstep : (s.step i).writeCountQ r = countTake (s.writeAfterReleases i r)
      (RegUse.is (allocated i) fun u => u.regWrite && u.rd == r) := by
    rw [step, hclr, if_low]
    simp only [hne, if_low]
  rw [hstep, countTake_of_lt (by omega), hafter, is_writes _ hr]

theorem writeCountQ_clear (hclr : i.clearI) : (s.step i).writeCountQ r = 0 := by
  rw [step, if_pos hclr]

end RegMapState

end OpenRV64
