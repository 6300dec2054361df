/-
The protection unit against the architecture: a table of entries that writes
change unless an entry is locked, and the first entry that overlaps an access
decides it.
-/
import OpenRV64.PmpBounds

namespace OpenRV64

open PmpState
open BitVec (allOnes toNat_setWidth lt_def le_def)

/-- What the A field of an entry selects: nothing, the smallest region, or the region that
the address register encodes. -/
inductive PmpMode
  | off
  | grain
  | napot
  deriving DecidableEq

/-- TOR and NA4 are not offered: an entry written so matches nothing. -/
def PmpMode.ofField (a : BitVec 2) : PmpMode := if a = 0b11 then .napot else .off

/-- The other reading of NA4 under a coarser grain: a region of one grain. -/
def PmpMode.ofFieldNa4 (a : BitVec 2) : PmpMode :=
  if a = 0b11 then .napot else if a = 0b10 then .grain else .off

structure PmpEntry where
  locked : Bool
  mode : PmpMode
  exec : Bool
  write : Bool
  read : Bool
  addr : BitVec 37

structure PmpAccess where
  addr : BitVec 64
  size : BitVec 3
  write : Bool
  exec : Bool
  priv : BitVec 2

def PmpInput.access (i : PmpInput) : PmpAccess :=
  ⟨i.busAddrI, i.busSizeI, i.busWriteI, i.busExecI, i.busPrivModeI⟩

/-- The bytes of an access.  Nothing wraps at the top of the address space. -/
def PmpAccess.bytes (a : PmpAccess) : Set ℕ :=
  {b | a.addr.toNat ≤ b ∧ b < a.addr.toNat + 2 ^ a.size.toNat}

namespace PmpEntry

/-- An entry as reset leaves it. -/
def cleared : PmpEntry := ⟨false, .off, false, false, false, 0⟩

/-- The byte addresses an entry covers. -/
def region (e : PmpEntry) : Set ℕ :=
  match e.mode with
  | .off => ∅
  | .grain => Napot.region 12 (4 * e.addr.toNat)
  | .napot => Napot.region (napotLog e.addr) (4 * e.addr.toNat)

def Overlaps (e : PmpEntry) (a : PmpAccess) : Prop := ∃ b ∈ a.bytes, b ∈ e.region

def Contains (e : PmpEntry) (a : PmpAccess) : Prop := ∀ b ∈ a.bytes, b ∈ e.region

def Permits (e : PmpEntry) (a : PmpAccess) : Prop :=
  (if a.exec then e.exec else if a.write then e.write else e.read) = true

/-- The decision of the entry that decides: a part of the access outside it denies, and
machine mode obeys the permissions of locked entries only. -/
def Allows (e : PmpEntry) (a : PmpAccess) : Prop :=
  e.Contains a ∧ ((a.priv = privM ∧ e.locked = false) ∨ e.Permits a)

/-- The entry with the fields of a configuration byte.  Writing without reading is
reserved and gives neither. -/
def setCfg (modes : BitVec 2 → PmpMode) (e : PmpEntry) (cfg : BitVec 8) : PmpEntry :=
  { e with
    locked := cfgL cfg
    mode := modes (cfgA cfg)
    exec := cfgX cfg
    write := cfgW cfg && cfgR cfg
    read := cfgR cfg }

def setAddr (e : PmpEntry) (addr : BitVec 37) : PmpEntry := { e with addr := addr }

end PmpEntry

/-- The architectural state: one entry a storage entry. -/
abbrev PmpTable (p : PmpParams) := Fin p.activeEntries → PmpEntry

namespace PmpTable

variable {p : PmpParams}

/-- The lowest-numbered entry that overlaps the access decides; when none does, machine
mode is allowed. -/
def Allows (t : PmpTable p) (a : PmpAccess) : Prop :=
  (∃ e, (t e).Overlaps a ∧ (∀ e' < e, ¬ (t e').Overlaps a) ∧ (t e).Allows a) ∨
    ((∀ e, ¬ (t e).Overlaps a) ∧ a.priv = privM)

/-- A CSR write.  Eight configuration bytes share a register, and a locked entry takes
neither a configuration nor an address. -/
def write (modes : BitVec 2 → PmpMode) (t : PmpTable p) (csr : BitVec 12)
    (wdata : BitVec 64) : PmpTable p :=
  fun e =>
    if (t e).locked then t e
    else if csr.toNat = 0x3a0 + 2 * (e.val / 8) then
      (t e).setCfg modes (wdata.extractLsb' (e.val % 8 * 8) 8)
    else if csr.toNat = 0x3b0 + e.val then (t e).setAddr (wdata.setWidth 37)
    else t e

end PmpTable

/-- A write is held until it is ready. -/
def WritesHeld {p : PmpParams} : Sync.Past (PmpState p) PmpInput → PmpState p → PmpInput → Prop
  | [], _, _ => True
  | (s', i') :: _, _, i =>
    i'.csrWriteI = true → s'.csrWriteReadyO i' = false →
      i.csrWriteI = true ∧ i.csrAddrI = i'.csrAddrI ∧ i.csrWdataI = i'.csrWdataI

namespace PmpState

variable {p : PmpParams} (modes : BitVec 2 → PmpMode)

/-- A write completes in the cycle in which it is ready. -/
def Completes (s : PmpState p) (i : PmpInput) : Prop :=
  i.csrWriteI = true ∧ s.csrWriteReadyO i = true

instance (s : PmpState p) (i : PmpInput) : Decidable (s.Completes i) :=
  inferInstanceAs (Decidable (_ ∧ _))

/-- The table after the writes completed so far. -/
def written : Sync.Past (PmpState p) PmpInput → PmpTable p
  | [] => fun _ => .cleared
  | (s, i) :: past =>
    if s.Completes i then (written past).write modes i.csrAddrI i.csrWdataI
    else written past

/-- The table an access of this cycle is checked against: an address write counts from the
cycle in which it is ready, a configuration write from the next. -/
def visible (s : PmpState p) (past : Sync.Past (PmpState p) PmpInput) (i : PmpInput) : PmpTable p :=
  if s.Completes i ∧ i.csrPmpaddrMatch then
    (written modes past).write modes i.csrAddrI i.csrWdataI
  else written modes past

/-- The entries as the registers hold them. -/
def table (s : PmpState p) : PmpTable p :=
  fun e => (PmpEntry.cleared.setCfg .ofField (s.cfgQ e) : PmpEntry).setAddr (s.addrQ e)

variable {s : PmpState p} {i : PmpInput}

theorem accessLow_toNat : (accessLow i).toNat = i.busAddrI.toNat % 2 ^ 39 := by
  rw [accessLow, toNat_setWidth, toNat_setWidth]
  omega

theorem accessHigh_toNat :
    (accessHigh i).toNat = i.busAddrI.toNat % 2 ^ 39 + 2 ^ i.busSizeI.toNat := by
  have hsize : 2 ^ i.busSizeI.toNat ≤ 2 ^ 7 :=
    Nat.pow_le_pow_right (by decide) (by have := i.busSizeI.isLt; omega)
  have hone : ((1 : BitVec 40) <<< i.busSizeI.toNat).toNat = 2 ^ i.busSizeI.toNat := by
    rw [BitVec.toNat_shiftLeft, show (1 : BitVec 40).toNat = 1 from rfl, Nat.one_shiftLeft,
      Nat.mod_eq_of_lt (hsize.trans_lt (by decide))]
  rw [accessHigh, BitVec.toNat_add, accessLow_toNat, hone]
  omega

theorem accessRepresentable_iff : accessRepresentable i ↔ i.busAddrI.toNat < 2 ^ 39 := by
  have h : (i.busAddrI.extractLsb' 39 25).toNat = i.busAddrI.toNat / 2 ^ 39 := by
    have := i.busAddrI.isLt
    rw [BitVec.extractLsb'_toNat, Nat.shiftRight_eq_div_pow]
    omega
  rw [accessRepresentable, beq_iff_eq, ← BitVec.toNat_inj, h]
  show i.busAddrI.toNat / 2 ^ 39 = 0 ↔ _
  omega

section

variable {e : Fin p.activeEntries}

theorem table_region_of_napot (h : cfgA (s.cfgQ e) = pmpANapot) :
    (s.table e).region = Napot.region (napotLog (s.addrQ e)) (4 * (s.addrQ e).toNat) := by
  have hmode : (s.table e).mode = .napot := if_pos h
  rw [PmpEntry.region, hmode]
  rfl

theorem table_region_of_off (h : cfgA (s.cfgQ e) ≠ pmpANapot) : (s.table e).region = ∅ := by
  have hmode : (s.table e).mode = .off := if_neg h
  rw [PmpEntry.region, hmode]

theorem Decoded.mem_region (hd : s.Decoded e) {b : ℕ} :
    b ∈ Napot.region (napotLog (s.addrQ e)) (4 * (s.addrQ e).toNat) ↔
      (s.regionLowQ e).toNat ≤ b ∧ b < (s.regionHighQ e).toNat := by
  rw [Napot.mem_region_iff, hd.1, hd.2]
  rfl

theorem Decoded.high_le (hd : s.Decoded e) : (s.regionHighQ e).toNat ≤ 2 ^ 39 := by
  rw [hd.2]
  exact napotLimit_le _

theorem overlap_iff (hd : s.Decoded e) : s.overlap i e ↔ (s.table e).Overlaps i.access := by
  have hpos := Nat.two_pow_pos i.busSizeI.toNat
  by_cases hmode : cfgA (s.cfgQ e) = pmpANapot
  · have hlt := (s.regionLowQ e).isLt
    have hhigh := hd.high_le
    simp only [overlap, hmode, beq_self_eq_true, Bool.and_true, Bool.and_eq_true,
      decide_eq_true_eq, accessRepresentable_iff, lt_def, accessLow_toNat,
      accessHigh_toNat, toNat_setWidth]
    rw [PmpEntry.Overlaps, table_region_of_napot hmode]
    constructor
    · rintro ⟨⟨hrep, hlow⟩, hhigh⟩
      refine ⟨max i.busAddrI.toNat (s.regionLowQ e).toNat, ⟨le_max_left _ _, ?_⟩,
        hd.mem_region.mpr ⟨le_max_right _ _, ?_⟩⟩
      · show max i.busAddrI.toNat (s.regionLowQ e).toNat < i.busAddrI.toNat + 2 ^ i.busSizeI.toNat
        omega
      · have hord : (s.regionLowQ e).toNat < (s.regionHighQ e).toNat := by
          rw [hd.1, hd.2]
          have := Nat.two_pow_pos (napotLog (s.addrQ e))
          omega
        omega
    · rintro ⟨b, ⟨hlow, hhigh⟩, hmem⟩
      obtain ⟨hge, hlt⟩ := hd.mem_region.mp hmem
      have hlow : i.busAddrI.toNat ≤ b := hlow
      have hhigh : b < i.busAddrI.toNat + 2 ^ i.busSizeI.toNat := hhigh
      omega
  · have hoff : s.overlap i e = false := by
      rw [overlap, beq_false_of_ne hmode, Bool.and_false, Bool.false_and, Bool.false_and]
    rw [hoff, PmpEntry.Overlaps, table_region_of_off hmode]
    simp

/-- An entry that overlaps the access decides it as the architecture does. -/
theorem entryAllow_iff (h : s.Sound) (hoverlap : s.overlap i e) :
    s.entryAllow i e ↔ (s.table e).Allows i.access := by
  have hd := h.decoded e
  have hpos := Nat.two_pow_pos i.busSizeI.toNat
  simp only [overlap, Bool.and_eq_true, beq_iff_eq, accessRepresentable_iff] at hoverlap
  obtain ⟨⟨⟨hrep, hmode⟩, -⟩, -⟩ := hoverlap
  have hcontains : ((s.regionLowQ e).toNat ≤ i.busAddrI.toNat ∧
      i.busAddrI.toNat + 2 ^ i.busSizeI.toNat ≤ (s.regionHighQ e).toNat) ↔
      (s.table e).Contains i.access := by
    rw [PmpEntry.Contains, table_region_of_napot hmode]
    constructor
    · rintro ⟨hlow, hhigh⟩ b ⟨hge, hlt⟩
      exact hd.mem_region.mpr ⟨hlow.trans hge, Nat.lt_of_lt_of_le hlt hhigh⟩
    · intro hall
      have hfst := hd.mem_region.mp (hall i.busAddrI.toNat
        ⟨le_refl _, Nat.lt_add_of_pos_right hpos⟩)
      have hlast := hd.mem_region.mp (hall (i.busAddrI.toNat + 2 ^ i.busSizeI.toNat - 1)
        ⟨Nat.le_sub_of_add_le (Nat.add_le_add_left hpos _), Nat.sub_lt (by omega) (by decide)⟩)
      omega
  have hperm : permitted i (s.cfgQ e) ↔ (s.table e).Permits i.access := by
    have hw : (s.table e).write = cfgW (s.cfgQ e) := by
      show (cfgW (s.cfgQ e) && cfgR (s.cfgQ e)) = cfgW (s.cfgQ e)
      cases hw : cfgW (s.cfgQ e) with
      | false => rfl
      | true => rw [h.readable e hw]; rfl
    rw [PmpEntry.Permits, hw]
    rfl
  have hlt := (s.regionLowQ e).isLt
  rw [PmpEntry.Allows, ← hcontains, ← hperm, entryAllow]
  simp only [Bool.and_eq_true, Bool.or_eq_true, decide_eq_true_eq, beq_iff_eq,
    Bool.not_eq_true', le_def, accessLow_toNat, accessHigh_toNat, toNat_setWidth]
  rw [Nat.mod_eq_of_lt hrep, Nat.mod_eq_of_lt (by omega)]
  rfl

end

theorem find_finRange {n : ℕ} {f : Fin n → Bool} {e : Fin n} :
    (List.finRange n).find? f = some e ↔ f e ∧ ∀ e' < e, f e' = false := by
  rw [List.find?_eq_some_iff_getElem]
  constructor
  · rintro ⟨he, k, hk, rfl, hbef⟩
    refine ⟨he, fun e' hlt => ?_⟩
    rw [List.getElem_finRange] at hlt
    have hnone := hbef e'.val hlt
    rwa [List.getElem_finRange, Bool.not_eq_true'] at hnone
  · rintro ⟨he, hbef⟩
    refine ⟨he, e.val, by rw [List.length_finRange]; exact e.isLt, ?_, ?_⟩
    · rw [List.getElem_finRange]
      rfl
    · intro j hj
      rw [List.getElem_finRange, Bool.not_eq_true']
      exact hbef _ hj

/-- The decision on the registers is the decision on the table they hold. -/
theorem pmpAllow_iff (h : s.Sound) : s.pmpAllow i ↔ s.table.Allows i.access := by
  have hov : ∀ e, s.overlap i e = false ↔ ¬ (s.table e).Overlaps i.access := by
    intro e
    rw [← overlap_iff (h.decoded e), Bool.not_eq_true]
  rw [pmpAllow]
  cases hfind : (List.finRange p.activeEntries).find? (s.overlap i) with
  | some e =>
    obtain ⟨hoverlap, hbef⟩ := find_finRange.mp hfind
    have hfst := (overlap_iff (h.decoded e)).mp hoverlap
    rw [entryAllow_iff h hoverlap]
    constructor
    · exact fun hallow => .inl ⟨e, hfst, fun e' he => (hov e').mp (hbef e' he), hallow⟩
    · rintro (⟨e', hover, hnone, hallow⟩ | ⟨hnone, -⟩)
      · rcases lt_trichotomy e e' with hlt | rfl | hlt
        · exact absurd hfst (hnone e hlt)
        · exact hallow
        · exact absurd hover ((hov e').mp (hbef e' hlt))
      · exact absurd hfst (hnone e)
  | none =>
    rw [List.find?_eq_none] at hfind
    have hnone : ∀ e, ¬ (s.table e).Overlaps i.access := fun e =>
      (hov e).mp (Bool.not_eq_true _ ▸ hfind e (List.mem_finRange e))
    constructor
    · exact fun hm => .inr ⟨hnone, beq_iff_eq.mp hm⟩
    · rintro (⟨e, hover, -, -⟩ | ⟨-, hm⟩)
      · exact absurd hover (hnone e)
      · exact beq_iff_eq.mpr hm

theorem csrPmpaddrMatch_iff :
    i.csrPmpaddrMatch ↔ 0x3b0 ≤ i.csrAddrI.toNat ∧ i.csrAddrI.toNat < 0x3c0 := by
  simp only [PmpInput.csrPmpaddrMatch, Bool.and_eq_true, decide_eq_true_eq, le_def, lt_def]
  exact Iff.rfl

theorem csrPmpaddrEntry_eq (h : i.csrPmpaddrMatch) :
    i.csrAddrI.toNat = 0x3b0 + i.csrPmpaddrEntry.toNat := by
  obtain ⟨hge, hlt⟩ := csrPmpaddrMatch_iff.mp h
  rw [PmpInput.csrPmpaddrEntry, toNat_setWidth, BitVec.toNat_sub]
  show _ = 0x3b0 + (2 ^ 12 - 0x3b0 + i.csrAddrI.toNat) % 2 ^ 12 % 2 ^ 4
  omega

theorem setCfg_warl (e : PmpEntry) (cfg : BitVec 8) :
    e.setCfg .ofField (pmpcfgWarl cfg) = e.setCfg .ofField cfg := by
  have hmode : PmpMode.ofField (cfgA (pmpcfgWarl cfg)) = PmpMode.ofField (cfgA cfg) := by
    rw [cfgA_warl]
    by_cases h : cfgA cfg = pmpANapot
    · rw [if_pos h, h]
    · rw [if_neg h, PmpMode.ofField, PmpMode.ofField, if_neg h]
      rfl
  simp only [PmpEntry.setCfg, hmode, cfgL_warl, cfgX_warl, cfgW_warl, cfgR_warl]
  rw [Bool.and_assoc, Bool.and_self]

/-- An address write changes the entry it names, and no other. -/
theorem write_address {t : PmpTable p} (h : i.csrPmpaddrMatch) (e : Fin p.activeEntries) :
    t.write modes i.csrAddrI i.csrWdataI e =
      if e.val = i.csrPmpaddrEntry.toNat ∧ (t e).locked = false then
        (t e).setAddr i.csrPmpaddrValue
      else t e := by
  have hcsr := csrPmpaddrEntry_eq h
  have hact := p.active_le
  have hlt := e.isLt
  rw [PmpTable.write]
  cases hlock : (t e).locked with
  | true => simp
  | false =>
    rw [if_neg (by decide), if_neg (by omega)]
    by_cases he : e.val = i.csrPmpaddrEntry.toNat
    · rw [if_pos (by omega), if_pos ⟨he, rfl⟩]
      rfl
    · rw [if_neg (by omega), if_neg (fun hand => he hand.1)]

/-- A configuration write changes the unlocked entries of its register. -/
theorem cfgStep_table {first : ℕ} (hfst : first = 0 ∨ first = 8)
    (hcsr : i.csrAddrI.toNat = 0x3a0 + first / 4) :
    (s.settled.cfgStep i first).table = s.table.write .ofField i.csrAddrI i.csrWdataI := by
  funext e
  have hact := p.active_le
  have hlt := e.isLt
  have hlocked : (s.table e).locked = cfgL (s.cfgQ e) := rfl
  rw [PmpTable.write, hlocked]
  by_cases hrng : first ≤ e.val ∧ e.val < first + 8 ∧ (!cfgL (s.cfgQ e))
  · have hopen : cfgL (s.cfgQ e) = false := by simpa using hrng.2.2
    have hcfg : (s.settled.cfgStep i first).cfgQ e =
        pmpcfgWarl (i.wdataByte (e.val - first)) := if_pos hrng
    rw [hopen, if_neg (by decide), if_pos (by omega), table, hcfg, setCfg_warl,
      PmpInput.wdataByte, show e.val - first = e.val % 8 by omega]
    rfl
  have hcfg : (s.settled.cfgStep i first).cfgQ e = s.cfgQ e := if_neg hrng
  have hsame : (s.settled.cfgStep i first).table e = s.table e := by
    rw [table, hcfg]
    rfl
  rw [hsame]
  cases hlock : cfgL (s.cfgQ e) with
  | true => rfl
  | false =>
    rw [hlock] at hrng
    rw [if_neg (by decide), if_neg (by simp at hrng; omega), if_neg (by omega)]

variable {past : Sync.Past (PmpState p) PmpInput}

/-- The last cycle presented an address write that was not ready in it. -/
def Waiting : Sync.Past (PmpState p) PmpInput → PmpState p → Prop
  | [], _ => False
  | (s', i') :: _, s =>
    i'.csrWriteI = true ∧ s'.csrWriteReadyO i' = false ∧ i'.csrPmpaddrMatch = true ∧
      i'.csrPmpaddrEntry = s.entryQ ∧ i'.csrPmpaddrValue = s.pendingQ

/-- The registers hold the table of the completed writes, and in the cycle in which an
address write becomes ready that write as well. -/
structure Tracks (past : Sync.Past (PmpState p) PmpInput) (s : PmpState p) : Prop where
  table : s.table = fun e => if s.doneQ = true ∧ e.val = s.entryQ.toNat then
        (written .ofField past e).setAddr s.pendingQ
      else written .ofField past e
  waiting : s.busyQ = true ∨ s.doneQ = true → Waiting past s

theorem Tracks.table_apply (h : Tracks past s) (e : Fin p.activeEntries) : s.table e =
      if s.doneQ ∧ e.val = s.entryQ.toNat then
        (written .ofField past e).setAddr s.pendingQ
      else written .ofField past e := congrFun h.table e

theorem Tracks.table_of_not_done (h : Tracks past s) (hdone : s.doneQ = false) :
    s.table = written .ofField past := by
  rw [h.table]
  funext e
  rw [if_neg]
  rw [hdone]
  exact fun hand => Bool.false_ne_true hand.1

theorem Waiting.held (h : Waiting past s) (henv : WritesHeld past s i) :
    i.csrWriteI ∧ i.csrPmpaddrMatch ∧ i.csrPmpaddrEntry = s.entryQ ∧
      i.csrPmpaddrValue = s.pendingQ := by
  cases past with
  | nil => exact h.elim
  | cons head rest =>
    obtain ⟨hwr, hrdy, hmat, hent, hvalue⟩ := h
    obtain ⟨hw, haddr, hdata⟩ := henv hwr hrdy
    simp only [PmpInput.csrPmpaddrMatch, PmpInput.csrPmpaddrEntry,
      PmpInput.csrPmpaddrValue] at hmat hent hvalue ⊢
    rw [haddr, hdata]
    exact ⟨hw, hmat, hent, hvalue⟩

/-- An address write on an unlocked entry is ready when it is done. -/
theorem ready_of_open {e : Fin p.activeEntries} (hwr : i.csrWriteI)
    (hmat : i.csrPmpaddrMatch) (he : i.csrPmpaddrEntry.toNat = e.val)
    (hlock : cfgL (s.cfgQ e) = false) : s.csrWriteReadyO i = s.doneQ := by
  have hact : i.csrPmpaddrActive p := by
    rw [PmpInput.csrPmpaddrActive, hmat, he, decide_eq_true e.isLt]
    rfl
  rw [csrWriteReadyO, hwr, hact, csrPmpaddrLocked_eq he, hlock]
  rfl

theorem not_completes (hrdy : s.csrWriteReadyO i = false) : ¬ s.Completes i := by
  rintro ⟨-, h⟩
  rw [hrdy] at h
  exact Bool.false_ne_true h

theorem written_of_not_completes (h : ¬ s.Completes i) :
    written modes ((s, i) :: past) = written modes past := if_neg h

theorem written_of_completes (h : s.Completes i) : written modes ((s, i) :: past) =
      (written modes past).write modes i.csrAddrI i.csrWdataI := if_pos h

theorem table_eq_of_same {s' : PmpState p} (h : SameEntries s s') : s'.table = s.table := by
  funext e
  rw [table, table, h.cfg, h.addr]

theorem settled_same (s : PmpState p) : SameEntries s s.settled := ⟨rfl, rfl, rfl, rfl⟩

theorem SameEntries.trans {s' s'' : PmpState p} (h : SameEntries s s')
    (h' : SameEntries s' s'') : SameEntries s s'' :=
  ⟨h'.cfg.trans h.cfg, h'.addr.trans h.addr, h'.low.trans h.low, h'.high.trans h.high⟩

/-- A cycle that leaves the table and completes no write. -/
theorem Tracks.of_same {s' : PmpState p} (h : Tracks past s) (hsame : SameEntries s s')
    (hwas : s.doneQ = false) (hdone : s'.doneQ = false) (hrdy : ¬ s.Completes i)
    (hwait : s'.busyQ → Waiting ((s, i) :: past) s') : Tracks ((s, i) :: past) s' where
  table := by
    rw [table_eq_of_same hsame, h.table_of_not_done hwas, written_of_not_completes _ hrdy]
    funext e
    rw [if_neg]
    rw [hdone]
    exact fun hand => Bool.false_ne_true hand.1
  waiting hb := by
    rcases hb with hb | hb
    · exact hwait hb
    · exact absurd_low (hdone.symm.trans hb)

theorem Tracks.busy_step (h : Tracks past s) (hsound : s.Sound) (henv : WritesHeld past s i)
    (hbsy : s.busyQ) : Tracks ((s, i) :: past) (s.step i) := by
  obtain ⟨hwr, hmat, hent, hvalue⟩ := (h.waiting (.inl hbsy)).held henv
  obtain ⟨t, ht, hopen⟩ := hsound.target (.inl hbsy)
  have hdone := hsound.exclusive hbsy
  have hrdy : s.csrWriteReadyO i = false :=
    (ready_of_open hwr hmat (hent ▸ ht.symm) hopen).trans hdone
  rcases s.step_cases i with ⟨-, -, heq⟩ | ⟨-, -, heq⟩ | ⟨hstart, -⟩ | ⟨hidle, -⟩ | ⟨hidle, -⟩
  · obtain ⟨-, hdone', hent', hpending'⟩ := scanStep_control s.settled
    rw [heq]
    refine h.of_same ((settled_same s).trans (scanStep_same s.settled)) hdone hdone'
      (not_completes hrdy) (fun _ => ⟨hwr, hrdy, hmat, ?_, ?_⟩)
    · rw [hent']
      exact hent
    · rw [hpending']
      exact hvalue
  · by_cases hcnt : s.settled.bitCountQ = 39
    · rw [heq, addStep_commit hcnt]
      refine ⟨?_, fun _ => ⟨hwr, hrdy, hmat, hent, hvalue⟩⟩
      rw [written_of_not_completes _ (not_completes hrdy), ← h.table_of_not_done hdone]
      funext e
      by_cases he : e.val = s.entryQ.toNat
      · rw [if_pos ⟨rfl, he⟩]
        show PmpEntry.setAddr _ (if e.val = s.entryQ.toNat then s.pendingQ else s.addrQ e) = _
        rw [if_pos he]
        rfl
      · rw [if_neg (fun hand => he hand.2)]
        show PmpEntry.setAddr _ (if e.val = s.entryQ.toNat then s.pendingQ else s.addrQ e) = _
        rw [if_neg he]
        rfl
    obtain ⟨hsame, -, hdone', hent', hpending'⟩ := addStep_shift hcnt
    rw [heq]
    refine h.of_same ((settled_same s).trans hsame) hdone hdone'
      (not_completes hrdy) (fun _ => ⟨hwr, hrdy, hmat, ?_, ?_⟩)
    · rw [hent']
      exact hent
    · rw [hpending']
      exact hvalue
  · exact absurd_low ((pmpaddrStart_iff.mp hstart).2.2.1.symm.trans hbsy)
  · exact absurd_low (hidle.symm.trans hbsy)
  · exact absurd_low (hidle.symm.trans hbsy)

/-- An address write that is ready at once changes nothing: its entry is locked or absent. -/
theorem write_ready (hdone : s.doneQ = false) (hcomp : s.Completes i)
    (hmat : i.csrPmpaddrMatch) : s.table.write .ofField i.csrAddrI i.csrWdataI = s.table := by
  funext e
  rw [write_address _ hmat, if_neg]
  rintro ⟨he, hlock⟩
  have hrdy := ready_of_open hcomp.1 hmat he.symm hlock
  rw [hcomp.2, hdone] at hrdy
  exact absurd hrdy (by decide)

theorem write_other {t : PmpTable p} (hne0 : i.csrAddrI ≠ csrPmpcfg0)
    (hne2 : i.csrAddrI ≠ csrPmpcfg2) (hnomatch : i.csrPmpaddrMatch = false) :
    t.write modes i.csrAddrI i.csrWdataI = t := by
  funext e
  have hact := p.active_le
  have hlt := e.isLt
  have hnot0 : i.csrAddrI.toNat ≠ 0x3a0 := fun h => hne0 (BitVec.eq_of_toNat_eq h)
  have hnot2 : i.csrAddrI.toNat ≠ 0x3a2 := fun h => hne2 (BitVec.eq_of_toNat_eq h)
  rw [← Bool.not_eq_true, csrPmpaddrMatch_iff] at hnomatch
  rw [PmpTable.write]
  split
  · rfl
  · rw [if_neg (by omega), if_neg (by omega)]

/-- The table in the cycle in which an address write becomes ready. -/
theorem Tracks.table_done (h : Tracks past s) (hsound : s.Sound) (henv : WritesHeld past s i)
    (hdone : s.doneQ) :
    s.Completes i ∧ i.csrPmpaddrMatch ∧
      (written .ofField past).write .ofField i.csrAddrI i.csrWdataI = s.table := by
  obtain ⟨hwr, hmat, hent, hvalue⟩ := (h.waiting (.inr hdone)).held henv
  obtain ⟨t, ht, hopen⟩ := hsound.target (.inr hdone)
  have hrdy := ready_of_open hwr hmat (hent ▸ ht.symm) hopen
  refine ⟨⟨hwr, hrdy.trans hdone⟩, hmat, ?_⟩
  have hlocked : (written .ofField past t).locked = false := by
    have htab : (s.table t).locked = cfgL (s.cfgQ t) := rfl
    rw [h.table_apply, if_pos ⟨hdone, ht⟩] at htab
    exact htab.trans hopen
  funext e
  rw [h.table_apply, write_address _ hmat, hent, hvalue]
  by_cases he : e.val = s.entryQ.toNat
  · have het : e = t := Fin.eq_of_val_eq (he.trans ht.symm)
    rw [het, if_pos ⟨ht, hlocked⟩, if_pos ⟨hdone, ht⟩]
  · rw [if_neg (fun hand => he hand.1), if_neg (fun hand => he hand.2)]

theorem Tracks.idle_step (h : Tracks past s) (hsound : s.Sound) (henv : WritesHeld past s i)
    (hbsy : s.busyQ = false) : Tracks ((s, i) :: past) (s.step i) := by
  rcases s.step_cases i with ⟨hb, -⟩ | ⟨hb, -⟩ | ⟨hstart, heq⟩ |
    ⟨-, hwr, hdone, hcfg⟩ | ⟨-, hstart, hnocfg, heq⟩
  · exact absurd_low (hbsy.symm.trans hb)
  · exact absurd_low (hbsy.symm.trans hb)
  · obtain ⟨hwr, hmat, -, hdone, e, he, hopen⟩ := pmpaddrStart_iff.mp hstart
    have hrdy : s.csrWriteReadyO i = false := (ready_of_open hwr hmat he hopen).trans hdone
    rw [heq]
    exact h.of_same ⟨rfl, rfl, rfl, rfl⟩ hdone rfl (not_completes hrdy)
      (fun _ => ⟨hwr, hrdy, hmat, rfl, rfl⟩)
  · have hfst : ∃ first, (first = 0 ∨ first = 8) ∧
        i.csrAddrI.toNat = 0x3a0 + first / 4 ∧ s.step i = s.settled.cfgStep i first := by
      rcases hcfg with ⟨hcsr, heq⟩ | ⟨hcsr, heq⟩
      · exact ⟨0, .inl rfl, by rw [hcsr]; rfl, heq⟩
      · exact ⟨8, .inr rfl, by rw [hcsr]; rfl, heq⟩
    obtain ⟨first, hfst, hcsr, heq⟩ := hfst
    have hnomatch : i.csrPmpaddrMatch = false := by
      rw [← Bool.not_eq_true, csrPmpaddrMatch_iff]
      omega
    have hcomp : s.Completes i := by
      refine ⟨hwr, ?_⟩
      rw [csrWriteReadyO, hwr, PmpInput.csrPmpaddrActive, hnomatch, hbsy]
      rfl
    have htab := cfgStep_table (s := s) hfst hcsr
    rw [heq]
    refine ⟨?_, fun hb => ?_⟩
    · rw [htab, written_of_completes _ hcomp, ← h.table_of_not_done hdone]
      funext e
      exact (if_neg fun hand => Bool.false_ne_true hand.1).symm
    · rcases hb with hb | hb
      · exact absurd_low (hbsy.symm.trans hb)
      · cases hb
  have hwait : s.settled.busyQ ∨ s.settled.doneQ → Waiting ((s, i) :: past) s.settled := by
    rintro (hb | hb)
    · exact absurd_low (hbsy.symm.trans hb)
    · cases hb
  have hwritten : written .ofField ((s, i) :: past) = s.table := by
    cases hdone : s.doneQ with
    | true =>
      obtain ⟨hcomp, -, hwr⟩ := h.table_done hsound henv hdone
      rw [written_of_completes _ hcomp, hwr]
    | false =>
    by_cases hcomp : s.Completes i
    · rw [written_of_completes _ hcomp, ← h.table_of_not_done hdone]
      obtain ⟨hne0, hne2⟩ := hnocfg hcomp.1 hdone
      cases hmat : i.csrPmpaddrMatch with
      | true => exact write_ready hdone hcomp hmat
      | false => exact write_other _ hne0 hne2 hmat
    · rw [written_of_not_completes _ hcomp, h.table_of_not_done hdone]
  rw [heq]
  refine ⟨?_, hwait⟩
  rw [hwritten]
  funext e
  exact (if_neg fun hand => Bool.false_ne_true hand.1).symm

theorem reset_tracks : Tracks [] (reset : PmpState p) where
  table := by
    funext e
    rw [if_neg]
    · simp [table, reset, written, PmpEntry.setCfg, PmpEntry.setAddr,
        PmpEntry.cleared, PmpMode.ofField, cfgL, cfgA, cfgX, cfgW, cfgR]
    · rintro ⟨hdone, -⟩
      exact Bool.false_ne_true hdone
  waiting hb := by
    rcases hb with hb | hb
    · cases hb
    · cases hb

section

variable (hrun : Sync.Run (pmpCircuit p) WritesHeld past s)

include hrun

theorem tracks_of_run : Tracks past s := by
  induction hrun with
  | reset hinit =>
    rw [show _ = reset from hinit]
    exact reset_tracks
  | @cycle past s i hrun henv ih =>
    have hsound := sound_of_run hrun
    cases hbsy : s.busyQ with
    | true => exact ih.busy_step hsound henv hbsy
    | false => exact ih.idle_step hsound henv hbsy

/-- An access is checked against the table of the writes that count in its cycle. -/
theorem table_eq_visible (henv : WritesHeld past s i) : s.table = s.visible .ofField past i := by
  have htrk := tracks_of_run hrun
  have hsound := sound_of_run hrun
  cases hdone : s.doneQ with
  | true =>
    obtain ⟨hcomp, hmat, hwr⟩ := htrk.table_done hsound henv hdone
    rw [visible, if_pos ⟨hcomp, hmat⟩, hwr]
  | false =>
    have htab := htrk.table_of_not_done hdone
    by_cases hnow : s.Completes i ∧ i.csrPmpaddrMatch
    · rw [visible, if_pos hnow, ← htab, write_ready hdone hnow.1 hnow.2]
    · rw [visible, if_neg hnow, htab]

/-- An address write that is ready has its bounds in place. -/
theorem bounds_of_completes (henv : WritesHeld past s i) (hcomp : s.Completes i)
    {e : Fin p.activeEntries}
    (hcsr : i.csrAddrI.toNat = 0x3b0 + e.val) (hlock : cfgL (s.cfgQ e) = false) :
    s.addrQ e = i.csrWdataI.setWidth 37 ∧ s.Decoded e := by
  have hsound := sound_of_run hrun
  have hact := p.active_le
  have hlt := e.isLt
  have hmat : i.csrPmpaddrMatch := csrPmpaddrMatch_iff.mpr (by omega)
  have he : i.csrPmpaddrEntry.toNat = e.val := by
    have := csrPmpaddrEntry_eq hmat
    omega
  have hdone : s.doneQ := (ready_of_open hcomp.1 hmat he hlock).symm.trans hcomp.2
  obtain ⟨-, -, hent, hvalue⟩ := ((tracks_of_run hrun).waiting (.inr hdone)).held henv
  refine ⟨?_, hsound.decoded e⟩
  rw [hsound.committed hdone e (by rw [← hent, he]), ← hvalue]
  rfl

end

end PmpState

/-- The address register of all ones encodes the whole physical address space. -/
theorem mem_region_allOnes {b : ℕ} :
    b ∈ Napot.region (napotLog (allOnes 37)) (4 * (allOnes 37).toNat) ↔ b < 2 ^ 39 := by
  have hlog : napotLog (allOnes 37) = 39 := by decide +kernel
  have htop : 4 * (allOnes 37).toNat / 2 ^ 39 = 0 := by decide +kernel
  rw [hlog, Napot.mem_region, htop]
  exact Nat.div_eq_zero_iff_lt (by decide)

/-- In every run the decision on an access is the architecture's, on the table of the
writes completed before it; locked entries stay as they are; and an address write that is
ready has its bounds in place. -/
theorem pmp_decides {p : PmpParams} {past : Sync.Past (PmpState p) PmpInput}
    {s : PmpState p} (hrun : Sync.Run (pmpCircuit p) WritesHeld past s) :
    (∀ i, WritesHeld past s i →
      (s.busAllowO i = true ↔ (i.busValidI = true → (s.visible .ofField past i).Allows i.access))) ∧
    (∀ addr, 12 ≤ napotLog addr) ∧
    (∀ b, b ∈ Napot.region (napotLog (BitVec.allOnes 37)) (4 * (BitVec.allOnes 37).toNat) ↔
      b < 2 ^ 39) ∧ (∀ e, ∀ b : ℕ, b ∈ Napot.region (napotLog (s.addrQ e)) (4 * (s.addrQ e).toNat) ↔
        (s.regionLowQ e).toNat ≤ b ∧ b < (s.regionHighQ e).toNat) ∧
    (∀ x ∈ past, ∀ e, cfgL (x.1.cfgQ e) = true → PmpState.SameEntry x.1 s e) ∧
    (∀ i, WritesHeld past s i → s.Completes i → ∀ e : Fin p.activeEntries,
      i.csrAddrI.toNat = 0x3b0 + e.val → cfgL (s.cfgQ e) = false →
        s.addrQ e = i.csrWdataI.setWidth 37 ∧ s.Decoded e) := by
  have hsound := sound_of_run hrun
  refine ⟨fun i henv => ?_, grain_le_napotLog, fun _ => mem_region_allOnes,
    fun e b => (hsound.decoded e).mem_region,
    fun x hx e hlock => locked_of_run hrun hx hlock, fun i henv hcomplete e hcsr hlock =>
      bounds_of_completes hrun henv hcomplete hcsr hlock⟩
  rw [← table_eq_visible hrun henv, ← pmpAllow_iff hsound, busAllowO]
  cases i.busValidI
  · simp
  · simp

theorem onePmp_pos : 1 ≤ 1 := Nat.le.refl

theorem onePmp_le : 1 ≤ 16 := by decide

def onePmp : PmpParams := ⟨1, onePmp_pos, onePmp_le⟩

def supervisorRead : PmpInput where
  csrAddrI := 0
  csrWriteI := false
  csrWdataI := 0
  busValidI := true
  busAddrI := 0
  busSizeI := 3
  busWriteI := false
  busExecI := false
  busPrivModeI := 1

def writePmpcfg0 (cfg : BitVec 64) : PmpInput :=
  { supervisorRead with csrAddrI := csrPmpcfg0, csrWriteI := true, csrWdataI := cfg }

theorem run_writePmpcfg0 (cfg : BitVec 64) :
    Sync.Run (pmpCircuit onePmp) WritesHeld [(reset, writePmpcfg0 cfg)]
      ((reset : PmpState onePmp).step (writePmpcfg0 cfg)) :=
  .cycle _ (.reset rfl) trivial

theorem held_after_writePmpcfg0 (cfg : BitVec 64) (i : PmpInput) :
    WritesHeld (p := onePmp) [(reset, writePmpcfg0 cfg)] (reset.step (writePmpcfg0 cfg)) i := by
  intro _ hrdy
  have hrdy' : (reset : PmpState onePmp).csrWriteReadyO (writePmpcfg0 cfg) := by
    rfl
  exact absurd_low (hrdy.symm.trans hrdy')

/-- A region encoded as NAPOT opens its first page to a supervisor. -/
theorem pmp_decides_napot :
    ((reset : PmpState onePmp).step (writePmpcfg0 0x1f)).busAllowO supervisorRead = true ∧
      (((reset : PmpState onePmp).step (writePmpcfg0 0x1f)).visible .ofField
        [(reset, writePmpcfg0 0x1f)] supervisorRead).Allows supervisorRead.access := by
  have hallow : ((reset : PmpState onePmp).step
      (writePmpcfg0 0x1f)).busAllowO supervisorRead = true := by
    decide +kernel
  exact ⟨hallow, ((pmp_decides (run_writePmpcfg0 0x1f)).1 supervisorRead
    (held_after_writePmpcfg0 0x1f supervisorRead)).mp hallow rfl⟩

/-- An entry written as NA4 opens nothing, not even one grain. -/
theorem na4_not_grain :
    ¬ ∀ (p : PmpParams) (past : Sync.Past (PmpState p) PmpInput) (s : PmpState p),
      Sync.Run (pmpCircuit p) WritesHeld past s → ∀ i, WritesHeld past s i →
        (s.busAllowO i = true ↔
          (i.busValidI = true → (s.visible .ofFieldNa4 past i).Allows i.access)) := by
  intro hall
  have hdenied : ((reset : PmpState onePmp).step
      (writePmpcfg0 0x17)).busAllowO supervisorRead = false := by
    decide +kernel
  have hentry : ((reset : PmpState onePmp).step (writePmpcfg0 0x17)).visible
      .ofFieldNa4 [(reset, writePmpcfg0 0x17)] supervisorRead =
        fun _ => ⟨false, .grain, true, true, true, 0⟩ := by
    funext e
    obtain rfl : e = ⟨0, by decide⟩ := Fin.eq_of_val_eq (Nat.lt_one_iff.mp e.isLt)
    rfl
  have hbytes : ∀ b ∈ supervisorRead.access.bytes, b ∈ Napot.region 12 0 := by
    rintro b ⟨-, hlt⟩
    have hlt : b < 0 + 2 ^ 3 := hlt
    exact Napot.mem_region.mpr (by omega)
  have hzero : (0 : ℕ) ∈ supervisorRead.access.bytes := ⟨le_refl 0, Nat.two_pow_pos 3⟩
  have hallowed := (hall onePmp _ _ (run_writePmpcfg0 0x17) supervisorRead
    (held_after_writePmpcfg0 0x17 supervisorRead)).mpr (fun _ => by
      rw [hentry]
      exact Or.inl ⟨⟨0, by decide⟩, ⟨0, hzero, hbytes 0 hzero⟩,
        fun e' he => absurd he (Nat.not_lt_zero _), hbytes, Or.inr rfl⟩)
  rw [hdenied] at hallowed
  exact Bool.false_ne_true hallowed

end OpenRV64
