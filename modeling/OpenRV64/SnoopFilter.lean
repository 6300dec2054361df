/-
The independently tagged directory of the coherence home: set-associative ways
of valid bit, tag and I$/D$ sharer vectors, a registered lookup image, and a
per-set round-robin victim.
-/
import Mathlib.Data.Fintype.Basic
import Mathlib.Logic.Function.Basic
import Mathlib.Tactic.Linarith

namespace OpenRV64

open BitVec (ofNat toNat_ofNat toNat_inj toNat_add)
open Nat (two_pow_pos mod_eq_of_lt log2 mod_lt)

/-- `$clog2` of a positive elaboration-time constant. -/
def clog2 (n : Nat) : Nat :=
  if n ≤ 1 then 0 else Nat.log2 (n - 1) + 1

theorem le_two_pow_clog2 (n : Nat) : n ≤ 2 ^ clog2 n := by
  by_cases h : n ≤ 1
  · exact h.trans (Nat.one_le_two_pow)
  · rw [clog2, if_neg h]
    have := @Nat.lt_log2_self (n - 1)
    omega

/-- One bit for each hart of the coherence domain. -/
abbrev HartVec (numHarts : Nat) := Fin numHarts → Bool

/-- The reduction `|v`. -/
def HartVec.any {n : Nat} (v : HartVec n) : Bool := decide (∃ h, v h = true)

/-- The parameters of the snoop filter, with the geometry its generate block
accepts.  `entries_lt` is the range of an `integer` parameter. -/
structure SnoopFilterParams where
  numHarts : Nat
  entries : Nat
  ways : Nat
  numHarts_ok : numHarts = 2 ∨ numHarts = 4
  ways_pos : 1 ≤ ways
  sets_ok : 2 ≤ entries / ways
  entries_dvd : entries % ways = 0
  ways_pow : ways &&& (ways - 1) = 0
  sets_pow : entries / ways &&& (entries / ways - 1) = 0
  entries_lt : entries < 2 ^ 31

namespace SnoopFilterParams

variable (p : SnoopFilterParams)

def sets : Nat := p.entries / p.ways
def lineOffsetBits : Nat := 6
def setWidth : Nat := if p.sets > 1 then clog2 p.sets else 1
def wayWidth : Nat := if p.ways > 1 then clog2 p.ways else 1
def entryWidth : Nat := if p.entries > 1 then clog2 p.entries else 1
def tagWidth : Nat := 64 - lineOffsetBits - clog2 p.sets

end SnoopFilterParams

theorem clog2_two_pow (k : Nat) : clog2 (2 ^ k) = k := by
  cases k with
  | zero => rfl
  | succ k =>
    have hle : 2 ^ k ≤ 2 ^ (k + 1) - 1 := by
      have := two_pow_pos k
      rw [Nat.pow_succ]
      omega
    have hne : 2 ^ (k + 1) - 1 ≠ 0 := by
      have := two_pow_pos k
      omega
    have hlow : k ≤ log2 (2 ^ (k + 1) - 1) := (Nat.le_log2 hne).mpr hle
    have hhigh : log2 (2 ^ (k + 1) - 1) < k + 1 := by
      rw [Nat.log2_lt hne]
      have := two_pow_pos (k + 1)
      omega
    have hgt : ¬ 2 ^ (k + 1) ≤ 1 := by
      have := two_pow_pos k
      rw [Nat.pow_succ]
      omega
    rw [clog2, if_neg hgt]
    omega

namespace SnoopFilterParams

variable (p : SnoopFilterParams)

theorem ways_eq : ∃ k, p.ways = 2 ^ k :=
  (Nat.ne_zero_and_sub_one_eq_zero_iff_isPowerOfTwo).mp ⟨by have := p.ways_pos; omega, p.ways_pow⟩

theorem sets_two_le : 2 ≤ p.sets := p.sets_ok

theorem sets_eq : p.sets = 2 ^ p.setWidth := by
  obtain ⟨k, hk⟩ := (Nat.ne_zero_and_sub_one_eq_zero_iff_isPowerOfTwo).mp
    ⟨by have := p.sets_ok; omega, p.sets_pow⟩
  change p.sets = 2 ^ k at hk
  have hgt : p.sets > 1 := p.sets_two_le
  rw [setWidth, if_pos hgt, hk, clog2_two_pow]

theorem entries_eq : p.entries = p.sets * p.ways := by
  have := Nat.div_add_mod p.entries p.ways
  rw [p.entries_dvd, Nat.add_zero, Nat.mul_comm] at this
  exact this.symm

theorem sets_lt : p.sets < 2 ^ 31 := Nat.lt_of_le_of_lt (Nat.div_le_self _ _) p.entries_lt

theorem setWidth_lt : p.setWidth < 31 := by
  have h := p.sets_lt
  rw [p.sets_eq] at h
  exact (Nat.pow_lt_pow_iff_right (by decide)).mp h

theorem tag_shift : 64 - p.tagWidth = 6 + p.setWidth := by
  have h := p.setWidth_lt
  have hgt : p.sets > 1 := p.sets_two_le
  have hw : clog2 p.sets = p.setWidth := by rw [setWidth, if_pos hgt]
  rw [tagWidth, hw, lineOffsetBits]
  omega

theorem wayWidth_eq (h : 2 ≤ p.ways) : p.ways = 2 ^ p.wayWidth := by
  obtain ⟨k, hk⟩ := p.ways_eq
  have hgt : p.ways > 1 := h
  rw [wayWidth, if_pos hgt, hk, clog2_two_pow]

theorem way_lt (w : Fin p.ways) : w.val < 2 ^ p.wayWidth := by
  by_cases h : 2 ≤ p.ways
  · rw [← p.wayWidth_eq h]
    exact w.isLt
  · have := w.isLt
    have := two_pow_pos p.wayWidth
    omega

theorem wayWidth_le_entryWidth : p.wayWidth ≤ p.entryWidth := by
  have hentries : p.entries > 1 := by
    have := p.entries_eq
    have := p.sets_two_le
    have := p.ways_pos
    nlinarith
  have hsum : ∀ k, p.ways = 2 ^ k → p.entryWidth = p.setWidth + k := by
    intro k hk
    rw [entryWidth, if_pos hentries, p.entries_eq, p.sets_eq, hk, ← Nat.pow_add, clog2_two_pow]
  by_cases h : 2 ≤ p.ways
  · have := hsum _ (p.wayWidth_eq h)
    omega
  have hone : p.ways = 1 := by
    have := p.ways_pos
    omega
  have hent := hsum 0 (by rw [hone]; rfl)
  have hset : 1 ≤ p.setWidth := by
    by_contra hz
    have hsets := p.sets_eq
    have := p.sets_two_le
    rw [show p.setWidth = 0 by omega] at hsets
    omega
  have hway : p.wayWidth = 1 := by rw [wayWidth, if_neg (by omega)]
  omega

end SnoopFilterParams

/-- One synchronous memory of a way: `mem_q` is not reset, and `read_word_o`
is the registered image of the set in `read_set_q`. -/
structure SnoopFilterWay (W : Type) where
  memQ : Nat → W
  readSetQ : Nat
  readWordO : W

/-- One clock edge of `openrv64_icx_snoop_filter_way`.  The write port keeps
the registered lookup image coherent when it names the set read last. -/
def SnoopFilterWay.step {W : Type} (m : SnoopFilterWay W) (readValidI : Bool) (readSetI : Nat)
    (writeValidI : Bool) (writeSetI : Nat) (writeWordI : W) : SnoopFilterWay W where
  memQ :=
    if writeValidI then Function.update m.memQ writeSetI writeWordI else m.memQ
  readSetQ := if readValidI then readSetI else m.readSetQ
  readWordO :=
    if writeValidI && m.readSetQ == writeSetI then writeWordI
    else if readValidI then m.memQ readSetI
    else m.readWordO

/-- The registered image shows the stored word of `set`. -/
structure SnoopFilterWay.ImageOf {W : Type} (m : SnoopFilterWay W)
    (set : Nat) : Prop where
  readSet : m.readSetQ = set
  readWord : m.readWordO = m.memQ set

theorem SnoopFilterWay.imageOf_read {W : Type} (m : SnoopFilterWay W)
    (set writeSet : Nat) (writeWord : W) :
    (m.step true set false writeSet writeWord).ImageOf set := by
  constructor <;> simp [SnoopFilterWay.step]

theorem SnoopFilterWay.imageOf_keep {W : Type} {m : SnoopFilterWay W}
    {set : Nat} (himg : m.ImageOf set) (readSet : Nat) (writeValid : Bool)
    (writeSet : Nat) (writeWord : W) :
    (m.step false readSet writeValid writeSet writeWord).ImageOf set where
  readSet := by simp [SnoopFilterWay.step, himg.readSet]
  readWord := by
    by_cases hwr : writeValid
    · by_cases hset : set = writeSet
      · simp [SnoopFilterWay.step, himg.readSet, hwr, hset]
      · simp [SnoopFilterWay.step, himg.readSet, himg.readWord, hwr, hset]
    · simp [SnoopFilterWay.step, himg.readWord, hwr]

/-- One directory word: `{valid, tag, i_sharers, d_sharers}`. -/
structure DirWord (numHarts : Nat) where
  valid : Bool
  tag : Nat
  iSharers : HartVec numHarts
  dSharers : HartVec numHarts

/-- The two private caches of a hart. -/
inductive PrivateCache
  | icache
  | dcache
deriving DecidableEq, Repr

def DirWord.sharers {n : Nat} (d : DirWord n) : PrivateCache → HartVec n
  | .icache => d.iSharers
  | .dcache => d.dSharers

/-- The word written by the initialisation sweep. -/
def DirWord.zero (numHarts : Nat) : DirWord numHarts := ⟨false, 0, fun _ => false, fun _ => false⟩

structure SnoopFilterState (p : SnoopFilterParams) where
  way : Fin p.ways → SnoopFilterWay (DirWord p.numHarts)
  replace : SnoopFilterWay (BitVec p.wayWidth)
  lookupSetQ : Nat
  lookupTagQ : Nat
  lookupResponseValidQ : Bool
  initBusyQ : Bool
  initSetQ : Nat

structure SnoopFilterInput (p : SnoopFilterParams) where
  lookupValidI : Bool
  lookupLineAddrI : BitVec 64
  writeValidI : Bool
  writeAllocateI : Bool
  writeOverwriteI : Bool
  writeEntryI : BitVec p.entryWidth
  writeLineAddrI : BitVec 64
  writeAddISharersI : HartVec p.numHarts
  writeAddDSharersI : HartVec p.numHarts
  writeClearISharersI : HartVec p.numHarts
  writeClearDSharersI : HartVec p.numHarts

def SnoopFilterInput.writeAdd {p : SnoopFilterParams} (i : SnoopFilterInput p) :
    PrivateCache → HartVec p.numHarts
  | .icache => i.writeAddISharersI
  | .dcache => i.writeAddDSharersI

def SnoopFilterInput.writeClear {p : SnoopFilterParams}
    (i : SnoopFilterInput p) : PrivateCache → HartVec p.numHarts
  | .icache => i.writeClearISharersI
  | .dcache => i.writeClearDSharersI

namespace SnoopFilterParams

variable (p : SnoopFilterParams)

/-- `line_addr[LINE_OFFSET_BITS +: SET_WIDTH]`. -/
def lineSet (lineAddr : BitVec 64) : Nat := (lineAddr.toNat >>> lineOffsetBits) % 2 ^ p.setWidth

/-- `line_addr[ADDR_WIDTH-1 -: TAG_WIDTH]`. -/
def lineTag (lineAddr : BitVec 64) : Nat := lineAddr.toNat >>> (64 - p.tagWidth)

/-- `{tag, set, {LINE_OFFSET_BITS{1'b0}}}`. -/
def lineOf (tag set : Nat) : BitVec 64 :=
  BitVec.ofNat 64 ((tag * 2 ^ p.setWidth + set) * 2 ^ lineOffsetBits)

/-- `ENTRY_WIDTH'(set * WAYS + way)`. -/
def entryOf (set way : Nat) : BitVec p.entryWidth := BitVec.ofNat p.entryWidth (set * p.ways + way)

/-- `write_entry_i[WAY_WIDTH-1:0]`. -/
def writeWay (entry : BitVec p.entryWidth) : BitVec p.wayWidth := entry.setWidth p.wayWidth

end SnoopFilterParams

/-- `{line_addr[63:6], 6'b000000}`. -/
def lineAddr (addr : BitVec 64) : BitVec 64 := (addr >>> 6) <<< 6

theorem lineAddr_toNat (addr : BitVec 64) : (lineAddr addr).toNat = addr.toNat / 64 * 64 := by
  have := addr.isLt
  simp only [lineAddr, BitVec.toNat_shiftLeft, BitVec.toNat_ushiftRight,
    Nat.shiftLeft_eq, Nat.shiftRight_eq_div_pow]
  omega

@[simp] theorem lineAddr_idem (addr : BitVec 64) : lineAddr (lineAddr addr) = lineAddr addr := by
  apply BitVec.eq_of_toNat_eq
  rw [lineAddr_toNat, lineAddr_toNat]
  omega

namespace SnoopFilterParams

variable (p : SnoopFilterParams)

theorem lineTag_eq (line : BitVec 64) : p.lineTag line = line.toNat / 64 / 2 ^ p.setWidth := by
  rw [lineTag, p.tag_shift, Nat.shiftRight_eq_div_pow, Nat.pow_add, ← Nat.div_div_eq_div_mul]

theorem lineSet_eq (line : BitVec 64) : p.lineSet line = line.toNat / 64 % 2 ^ p.setWidth := by
  rw [lineSet, Nat.shiftRight_eq_div_pow]
  rfl

theorem lineSet_lt (line : BitVec 64) : p.lineSet line < p.sets := by
  rw [p.lineSet_eq, p.sets_eq]
  exact mod_lt _ (two_pow_pos _)

theorem lineTag_lineAddr (addr : BitVec 64) : p.lineTag (lineAddr addr) = p.lineTag addr := by
  rw [p.lineTag_eq, p.lineTag_eq, lineAddr_toNat, Nat.mul_div_cancel _ (by decide)]

theorem lineSet_lineAddr (addr : BitVec 64) : p.lineSet (lineAddr addr) = p.lineSet addr := by
  rw [p.lineSet_eq, p.lineSet_eq, lineAddr_toNat, Nat.mul_div_cancel _ (by decide)]

theorem lineOf_tag_set (addr : BitVec 64) :
    p.lineOf (p.lineTag addr) (p.lineSet addr) = lineAddr addr := by
  apply BitVec.eq_of_toNat_eq
  have hlt := addr.isLt
  rw [lineOf, toNat_ofNat, p.lineTag_eq, p.lineSet_eq, Nat.div_add_mod',
    lineAddr_toNat, lineOffsetBits]
  omega

theorem lineAddr_eq_iff (a b : BitVec 64) :
    lineAddr a = lineAddr b ↔ p.lineTag a = p.lineTag b ∧ p.lineSet a = p.lineSet b := by
  constructor
  · intro h
    rw [← p.lineTag_lineAddr a, ← p.lineSet_lineAddr a, h, p.lineTag_lineAddr, p.lineSet_lineAddr]
    exact ⟨rfl, rfl⟩
  · rintro ⟨htag, hset⟩
    rw [← p.lineOf_tag_set, ← p.lineOf_tag_set, htag, hset]

/-- A directory write reaches the way its entry names.  With one way the entry
has no way bits, and its set bit is read as the way number. -/
def wayReached (set : Nat) : Prop := 2 ≤ p.ways ∨ set % 2 = 0

instance (set : Nat) : Decidable (p.wayReached set) := inferInstanceAs (Decidable (_ ∨ _))

theorem writeWay_entryOf_toNat (set : Nat) (w : Fin p.ways) : (p.writeWay (p.entryOf set w)).toNat =
      if 2 ≤ p.ways then w.val else set % 2 := by
  have hwidth := p.wayWidth_le_entryWidth
  have hmod : (p.writeWay (p.entryOf set w)).toNat = (set * p.ways + w) % 2 ^ p.wayWidth := by
    rw [writeWay, entryOf, BitVec.toNat_setWidth, toNat_ofNat,
      Nat.mod_mod_of_dvd _ (Nat.pow_dvd_pow 2 hwidth)]
  rw [hmod]
  by_cases h : 2 ≤ p.ways
  · rw [if_pos h, ← p.wayWidth_eq h, Nat.mul_add_mod', mod_eq_of_lt w.isLt]
  have hone : p.ways = 1 := by
    have := p.ways_pos
    omega
  have hw : w.val = 0 := by
    have := w.isLt
    omega
  have hwidth1 : p.wayWidth = 1 := by rw [wayWidth, if_neg (by omega)]
  rw [if_neg h, hw, hone, hwidth1]
  simp

/-- The entry of a reached way selects that way and no other. -/
theorem writeWay_entryOf_beq {set : Nat} (hreach : p.wayReached set) (w w' : Fin p.ways) :
    (p.writeWay (p.entryOf set w) == ofNat p.wayWidth w') = decide (w' = w) := by
  have hmod : w'.val % 2 ^ p.wayWidth = w' := mod_eq_of_lt (p.way_lt w')
  have hsel : (p.writeWay (p.entryOf set w)).toNat = w := by
    rw [p.writeWay_entryOf_toNat]
    rcases hreach with h | h
    · rw [if_pos h]
    · split
      · rfl
      · have := w.isLt
        omega
  rw [Bool.eq_iff_iff, beq_iff_eq, decide_eq_true_iff, ← toNat_inj,
    toNat_ofNat, hmod, hsel, Fin.ext_iff]
  exact eq_comm

/-- The entry of a way that is not reached selects no way. -/
theorem writeWay_entryOf_not_reached {set : Nat} (hreach : ¬ p.wayReached set) (w w' : Fin p.ways) :
    (p.writeWay (p.entryOf set w) == ofNat p.wayWidth w') = false := by
  obtain ⟨hways, hset⟩ := not_or.mp hreach
  have hmod : w'.val % 2 ^ p.wayWidth = w' := mod_eq_of_lt (p.way_lt w')
  have hw' := w'.isLt
  rw [Bool.eq_false_iff, ne_eq, beq_iff_eq, ← toNat_inj,
    p.writeWay_entryOf_toNat, if_neg hways, toNat_ofNat, hmod]
  omega

end SnoopFilterParams

namespace SnoopFilterState

variable {p : SnoopFilterParams}

def initBusyO (s : SnoopFilterState p) : Bool := s.initBusyQ

def lookupResponseValidO (s : SnoopFilterState p) : Bool := s.lookupResponseValidQ

def lookupReadyO (s : SnoopFilterState p) (i : SnoopFilterInput p) : Bool :=
  !s.initBusyQ && !i.writeValidI

def lookupFire (s : SnoopFilterState p) (i : SnoopFilterInput p) : Bool :=
  i.lookupValidI && s.lookupReadyO i

/-- `way_read_word[n*WORD_WIDTH +: WORD_WIDTH]`.  Only a one-way directory can
name a word beyond the last way, and it then reads no stored word. -/
def wayReadWord (s : SnoopFilterState p) (n : Nat) : DirWord p.numHarts :=
  if h : n < p.ways then (s.way ⟨n, h⟩).readWordO else DirWord.zero p.numHarts

/-- The first way whose registered word matches the lookup. -/
def lookupWay (s : SnoopFilterState p) : Option (Fin p.ways) :=
  (List.finRange p.ways).find? fun w =>
    (s.way w).readWordO.valid && (s.way w).readWordO.tag == s.lookupTagQ

def lookupHitO (s : SnoopFilterState p) : Bool := s.lookupWay.isSome

def lookupEntryO (s : SnoopFilterState p) : BitVec p.entryWidth :=
  match s.lookupWay with
  | some w => p.entryOf s.lookupSetQ w
  | none => 0

def lookupISharersO (s : SnoopFilterState p) : HartVec p.numHarts :=
  match s.lookupWay with
  | some w => (s.way w).readWordO.iSharers
  | none => fun _ => false

def lookupDSharersO (s : SnoopFilterState p) : HartVec p.numHarts :=
  match s.lookupWay with
  | some w => (s.way w).readWordO.dSharers
  | none => fun _ => false

/-- Prefer the first invalid way; if every way is valid, the per-set
round-robin victim. -/
def victimWay (s : SnoopFilterState p) : Nat :=
  match (List.finRange p.ways).find? fun w => !(s.way w).readWordO.valid with
  | some w => w
  | none => s.replace.readWordO.toNat

def victimWayWord (s : SnoopFilterState p) : DirWord p.numHarts := s.wayReadWord s.victimWay

def victimEntryO (s : SnoopFilterState p) : BitVec p.entryWidth :=
  p.entryOf s.lookupSetQ s.victimWay

def victimValidO (s : SnoopFilterState p) : Bool := s.victimWayWord.valid

def victimLineAddrO (s : SnoopFilterState p) : BitVec 64 :=
  if s.victimWayWord.valid then p.lineOf s.victimWayWord.tag s.lookupSetQ else 0

def victimISharersO (s : SnoopFilterState p) : HartVec p.numHarts :=
  if s.victimWayWord.valid then s.victimWayWord.iSharers else fun _ => false

def victimDSharersO (s : SnoopFilterState p) : HartVec p.numHarts :=
  if s.victimWayWord.valid then s.victimWayWord.dSharers else fun _ => false

/-- `normal_write_word`: a fresh word on allocation, the selected word with
sharers added and then cleared otherwise. -/
def normalWriteWord (s : SnoopFilterState p) (i : SnoopFilterInput p) : DirWord p.numHarts :=
  let selected := s.wayReadWord (p.writeWay i.writeEntryI).toNat
  if i.writeAllocateI || i.writeOverwriteI then
    { valid := true
      tag := p.lineTag i.writeLineAddrI
      iSharers := fun h => i.writeAddISharersI h && !i.writeClearISharersI h
      dSharers := fun h => i.writeAddDSharersI h && !i.writeClearDSharersI h }
  else
    { selected with
      iSharers := fun h =>
        (selected.iSharers h || i.writeAddISharersI h) && !i.writeClearISharersI h
      dSharers := fun h =>
        (selected.dSharers h || i.writeAddDSharersI h) && !i.writeClearDSharersI h }

/-- `replace_write`: the way after the written one, wrapping at the last. -/
def replaceWrite (i : SnoopFilterInput p) : BitVec p.wayWidth :=
  if p.writeWay i.writeEntryI == BitVec.ofNat p.wayWidth (p.ways - 1) then 0
  else p.writeWay i.writeEntryI + 1

/-- One clock edge of `openrv64_icx_snoop_filter`. -/
def step (s : SnoopFilterState p) (i : SnoopFilterInput p) : SnoopFilterState p where
  way := fun w =>
    (s.way w).step (s.lookupFire i) (p.lineSet i.lookupLineAddrI)
      (s.initBusyQ || (i.writeValidI && p.writeWay i.writeEntryI == BitVec.ofNat p.wayWidth w))
      (if s.initBusyQ then s.initSetQ else p.lineSet i.writeLineAddrI)
      (if s.initBusyQ then DirWord.zero p.numHarts else s.normalWriteWord i)
  replace :=
    s.replace.step (s.lookupFire i) (p.lineSet i.lookupLineAddrI)
      (!s.initBusyQ && i.writeValidI && i.writeAllocateI)
      (p.lineSet i.writeLineAddrI) (replaceWrite i)
  lookupSetQ :=
    if s.lookupFire i then p.lineSet i.lookupLineAddrI else s.lookupSetQ
  lookupTagQ :=
    if s.lookupFire i then p.lineTag i.lookupLineAddrI else s.lookupTagQ
  lookupResponseValidQ := s.lookupFire i
  initBusyQ := s.initBusyQ && !(s.initSetQ == p.sets - 1)
  initSetQ :=
    if s.initBusyQ && !(s.initSetQ == p.sets - 1) then s.initSetQ + 1
    else s.initSetQ

/-- Asynchronous reset.  The memories and their read registers keep whatever
they held. -/
def reset (s : SnoopFilterState p) : SnoopFilterState p :=
  { s with
    lookupResponseValidQ := false
    lookupSetQ := 0
    lookupTagQ := 0
    initBusyQ := true
    initSetQ := 0 }

/-- The stored word of one way in one set. -/
def word (s : SnoopFilterState p) (w : Fin p.ways) (set : Nat) : DirWord p.numHarts :=
  (s.way w).memQ set

/-- Way `w` holds a valid entry tagged with `line`. -/
structure Names (s : SnoopFilterState p) (line : BitVec 64) (w : Fin p.ways) : Prop where
  valid : (s.word w (p.lineSet line)).valid = true
  tag : (s.word w (p.lineSet line)).tag = p.lineTag line

/-- A valid entry tagged with `line` whose sharer bit `h` of cache `c` is set. -/
def Holds (s : SnoopFilterState p) (c : PrivateCache) (line : BitVec 64)
    (h : Fin p.numHarts) : Prop :=
  ∃ w, s.Names line w ∧ (s.word w (p.lineSet line)).sharers c h = true

instance (s : SnoopFilterState p) (line : BitVec 64) (w : Fin p.ways) :
    Decidable (s.Names line w) :=
  decidable_of_iff
    ((s.word w (p.lineSet line)).valid = true ∧ (s.word w (p.lineSet line)).tag = p.lineTag line)
    ⟨fun h => ⟨h.1, h.2⟩, fun h => ⟨h.1, h.2⟩⟩

instance (s : SnoopFilterState p) (c : PrivateCache) (line : BitVec 64)
    (h : Fin p.numHarts) : Decidable (s.Holds c line h) :=
  inferInstanceAs (Decidable (∃ w, s.Names line w ∧ (s.word w (p.lineSet line)).sharers c h = true))

/-- The registered lookup image shows the set of `line` as it is stored. -/
structure ImageOf (s : SnoopFilterState p) (line : BitVec 64) : Prop where
  lookupSet : s.lookupSetQ = p.lineSet line
  lookupTag : s.lookupTagQ = p.lineTag line
  way : ∀ w, (s.way w).ImageOf (p.lineSet line)
  replace : s.replace.ImageOf (p.lineSet line)

/-- What the initialisation sweep establishes and every directory operation
keeps: tags are unique within a set, and a used set has a way to replace. -/
structure WellFormed (s : SnoopFilterState p) : Prop where
  initSet_lt : s.initSetQ < p.sets
  swept : s.initBusyQ = true → ∀ w set, set < s.initSetQ → (s.word w set).valid = false
  uniqueTag : s.initBusyQ = false → ∀ set, set < p.sets → ∀ w w',
    (s.word w set).valid = true → (s.word w' set).valid = true →
    (s.word w set).tag = (s.word w' set).tag → w = w'
  replace_lt : s.initBusyQ = false → ∀ set, set < p.sets → ∀ w,
    (s.word w set).valid = true → (s.replace.memQ set).toNat < p.ways

section

variable {s : SnoopFilterState p} {i : SnoopFilterInput p}

theorem lookupFire_eq_true : s.lookupFire i ↔
      i.lookupValidI ∧ s.initBusyQ = false ∧ i.writeValidI = false := by
  simp [lookupFire, lookupReadyO]

theorem word_step_of_no_write (hinit : s.initBusyQ = false) (hwr : i.writeValidI = false)
    (w : Fin p.ways) (set : Nat) : (s.step i).word w set = s.word w set := by
  simp [word, step, SnoopFilterWay.step, hinit, hwr]

theorem word_step_of_init (hinit : s.initBusyQ) (w : Fin p.ways) (set : Nat) :
    (s.step i).word w set =
      if set = s.initSetQ then DirWord.zero p.numHarts else s.word w set := by
  simp [word, step, SnoopFilterWay.step, hinit, Function.update_apply]

theorem word_step_of_write (hinit : s.initBusyQ = false) (hwr : i.writeValidI)
    (w : Fin p.ways) (set : Nat) : (s.step i).word w set =
      if p.writeWay i.writeEntryI = ofNat p.wayWidth w ∧ set = p.lineSet i.writeLineAddrI
        then s.normalWriteWord i else s.word w set := by
  by_cases hway : p.writeWay i.writeEntryI = ofNat p.wayWidth w <;>
    simp [word, step, SnoopFilterWay.step, hinit, hwr, hway, Function.update_apply]

theorem replace_step_of_no_allocate
    (hwr : s.initBusyQ ∨ (i.writeValidI && i.writeAllocateI) = false) :
    (s.step i).replace.memQ = s.replace.memQ := by
  rcases hwr with h | h
  · simp [step, SnoopFilterWay.step, h]
  rw [Bool.and_eq_false_imp] at h
  simp only [step, SnoopFilterWay.step]
  split
  · simp_all
  · rfl

theorem replaceWrite_lt (i : SnoopFilterInput p) {set : Nat} {w : Fin p.ways}
    (hent : i.writeEntryI = p.entryOf set w) : (replaceWrite i).toNat < p.ways := by
  have hpos := p.ways_pos
  have hsel := p.writeWay_entryOf_toNat set w
  rw [replaceWrite, hent]
  by_cases hways : 2 ≤ p.ways
  · rw [if_pos hways] at hsel
    have hpow := p.wayWidth_eq hways
    have hw := w.isLt
    split
    · simpa using Nat.lt_of_lt_of_le Nat.zero_lt_one hpos
    rename_i hlast
    rw [beq_iff_eq, ← toNat_inj, hsel, toNat_ofNat, ← hpow, mod_eq_of_lt (by omega)] at hlast
    rw [toNat_add, hsel, ← hpow]
    exact mod_lt _ hpos
  have hone : p.ways = 1 := by omega
  have hwidth : p.wayWidth = 1 := by rw [SnoopFilterParams.wayWidth, if_neg (by omega)]
  rw [if_neg hways] at hsel
  split
  · simp [hone]
  rename_i hlast
  rw [beq_iff_eq, ← toNat_inj, hsel, toNat_ofNat, hone] at hlast
  have hodd : set % 2 = 1 := by
    have : (1 - 1) % 2 ^ p.wayWidth = 0 := by simp
    omega
  rw [toNat_add, hsel, hodd, hone]
  simp [hwidth]

/-- A lookup leaves the image of the set it names. -/
theorem imageOf_step_of_lookup (hfire : s.lookupFire i) : ImageOf (s.step i) i.lookupLineAddrI := by
  obtain ⟨-, hinit, hwr⟩ := lookupFire_eq_true.mp hfire
  constructor
  · simp [step, hfire]
  · simp [step, hfire]
  · intro w
    simpa [step, hfire, hinit, hwr] using SnoopFilterWay.imageOf_read _ _ _ _
  · simpa [step, hfire, hinit, hwr] using SnoopFilterWay.imageOf_read _ _ _ _

theorem imageOf_step {line : BitVec 64} (himg : s.ImageOf line) (hfire : s.lookupFire i = false) :
    ImageOf (s.step i) line where
  lookupSet := by simp [step, hfire, himg.lookupSet]
  lookupTag := by simp [step, hfire, himg.lookupTag]
  way := fun w => by
    simpa only [step, hfire] using
      SnoopFilterWay.imageOf_keep (himg.way w) _ _ _ _
  replace := by
    simpa only [step, hfire] using
      SnoopFilterWay.imageOf_keep himg.replace _ _ _ _

end

section Lookup

variable {s : SnoopFilterState p} {line : BitVec 64}

theorem lookupWay_eq_some (himg : s.ImageOf line) {w : Fin p.ways}
    (h : s.lookupWay = some w) : s.Names line w := by
  have hfnd := List.find?_some h
  rw [Bool.and_eq_true, beq_iff_eq, (himg.way w).readWord, himg.lookupTag] at hfnd
  exact ⟨hfnd.1, hfnd.2⟩

theorem lookupWay_eq_none (himg : s.ImageOf line)
    (h : s.lookupWay = none) (w : Fin p.ways) : ¬ s.Names line w := by
  intro hname
  have hmiss := List.find?_eq_none.mp h w (List.mem_finRange w)
  rw [(himg.way w).readWord, himg.lookupTag] at hmiss
  exact hmiss (by
    rw [Bool.and_eq_true, beq_iff_eq]
    exact ⟨hname.valid, hname.tag⟩)

theorem WellFormed.names_unique (hwf : s.WellFormed)
    (hinit : s.initBusyQ = false) {w w' : Fin p.ways}
    (hw : s.Names line w) (hw' : s.Names line w') : w = w' :=
  hwf.uniqueTag hinit _ (p.lineSet_lt line) _ _ hw.valid hw'.valid (hw.tag.trans hw'.tag.symm)

theorem lookupEntryO_eq (himg : s.ImageOf line) {w : Fin p.ways} (h : s.lookupWay = some w) :
    s.lookupEntryO = p.entryOf (p.lineSet line) w := by
  rw [lookupEntryO, h, himg.lookupSet]

theorem victimEntryO_eq (himg : s.ImageOf line) :
    s.victimEntryO = p.entryOf (p.lineSet line) s.victimWay := by
  rw [victimEntryO, himg.lookupSet]

/-- On a hit the D-sharer outputs are those of the entry that names the line. -/
theorem lookupDSharersO_of_holds (hwf : s.WellFormed)
    (hinit : s.initBusyQ = false) (himg : s.ImageOf line)
    {w : Fin p.ways} (hway : s.lookupWay = some w) {h : Fin p.numHarts}
    (hholds : s.Holds .dcache line h) : s.lookupDSharersO h := by
  obtain ⟨w', hname, hbit⟩ := hholds
  have heq := hwf.names_unique hinit (lookupWay_eq_some himg hway) hname
  subst heq
  rw [lookupDSharersO, hway]
  simp only [(himg.way _).readWord]
  exact hbit

/-- The victim is a way of the directory, and its registered word is stored. -/
theorem victimWay_lt (hwf : s.WellFormed) (hinit : s.initBusyQ = false)
    (himg : s.ImageOf line) : s.victimWay < p.ways := by
  rw [victimWay]
  split
  · rename_i w _
    exact w.isLt
  rename_i hnone
  have hway : (⟨0, p.ways_pos⟩ : Fin p.ways) ∈ List.finRange p.ways := List.mem_finRange _
  have hval := List.find?_eq_none.mp hnone _ hway
  rw [(himg.way _).readWord] at hval
  rw [himg.replace.readWord]
  exact hwf.replace_lt hinit _ (p.lineSet_lt line) ⟨0, p.ways_pos⟩ (by simpa [word] using hval)

theorem victimWayWord_eq (himg : s.ImageOf line) (hlt : s.victimWay < p.ways) :
    s.victimWayWord = s.word ⟨s.victimWay, hlt⟩ (p.lineSet line) := by
  rw [victimWayWord, wayReadWord, dif_pos hlt, (himg.way _).readWord]
  rfl

end Lookup

section Write

variable {s : SnoopFilterState p} {i : SnoopFilterInput p} {line : BitVec 64} {w : Fin p.ways}

/-- A write whose entry is not reached changes no stored word. -/
theorem word_step_of_not_reached (hinit : s.initBusyQ = false)
    (hent : i.writeEntryI = p.entryOf (p.lineSet line) w)
    (hreach : ¬ p.wayReached (p.lineSet line)) (w' : Fin p.ways) (set : Nat) :
    (s.step i).word w' set = s.word w' set := by
  by_cases hwr : i.writeValidI
  · have hsel := p.writeWay_entryOf_not_reached hreach w w'
    rw [beq_eq_false_iff_ne] at hsel
    rw [word_step_of_write hinit hwr, hent, if_neg (fun h => hsel h.1)]
  · exact word_step_of_no_write hinit (Bool.eq_false_iff.mpr hwr) w' set

/-- A write whose entry is reached changes exactly the word it names. -/
theorem word_step_of_reached (hinit : s.initBusyQ = false) (hwr : i.writeValidI)
    (hent : i.writeEntryI = p.entryOf (p.lineSet line) w)
    (hline : i.writeLineAddrI = line)
    (hreach : p.wayReached (p.lineSet line)) (w' : Fin p.ways) (set : Nat) :
    (s.step i).word w' set =
      if w' = w ∧ set = p.lineSet line then s.normalWriteWord i
      else s.word w' set := by
  have hsel := p.writeWay_entryOf_beq hreach w w'
  rw [Bool.eq_iff_iff, beq_iff_eq, decide_eq_true_iff] at hsel
  rw [word_step_of_write hinit hwr, hent, hline]
  simp only [hsel]

/-- The word an update starts from is the stored one. -/
theorem wayReadWord_entryOf (himg : s.ImageOf line) (hreach : p.wayReached (p.lineSet line)) :
    s.wayReadWord (p.writeWay (p.entryOf (p.lineSet line) w)).toNat =
      s.word w (p.lineSet line) := by
  have hsel : (p.writeWay (p.entryOf (p.lineSet line) w)).toNat = w := by
    have h := p.writeWay_entryOf_beq hreach w w
    rw [decide_eq_true rfl, beq_iff_eq] at h
    rw [h, toNat_ofNat, mod_eq_of_lt (p.way_lt w)]
  rw [hsel, wayReadWord, dif_pos w.isLt, (himg.way _).readWord]
  rfl

/-- Adding and clearing sharers keeps the valid bit and the tag. -/
theorem normalWriteWord_of_update (himg : s.ImageOf line)
    (halloc : i.writeAllocateI = false) (hover : i.writeOverwriteI = false)
    (hent : i.writeEntryI = p.entryOf (p.lineSet line) w)
    (hreach : p.wayReached (p.lineSet line)) :
    s.normalWriteWord i =
      { s.word w (p.lineSet line) with
        iSharers := fun h =>
          ((s.word w (p.lineSet line)).iSharers h || i.writeAddISharersI h) &&
            !i.writeClearISharersI h
        dSharers := fun h =>
          ((s.word w (p.lineSet line)).dSharers h || i.writeAddDSharersI h) &&
            !i.writeClearDSharersI h } := by
  simp only [normalWriteWord, halloc, hover, hent, Bool.or_self,
    Bool.false_eq_true, if_false, wayReadWord_entryOf himg hreach]

/-- An allocation writes an entry for the line without sharers that are not
added by it. -/
theorem normalWriteWord_of_allocate (halloc : i.writeAllocateI) : s.normalWriteWord i =
      { valid := true
        tag := p.lineTag i.writeLineAddrI
        iSharers := fun h => i.writeAddISharersI h && !i.writeClearISharersI h
        dSharers := fun h => i.writeAddDSharersI h && !i.writeClearDSharersI h } := by
  simp [normalWriteWord, halloc]

end Write

section WellFormed

variable {s : SnoopFilterState p} {i : SnoopFilterInput p} {line : BitVec 64}

theorem initBusyQ_step (hinit : s.initBusyQ = false) : (s.step i).initBusyQ = false := by
  simp [step, hinit]

theorem WellFormed.step_of_init (hwf : s.WellFormed)
    (hinit : s.initBusyQ) : (s.step i).WellFormed := by
  have hlt := hwf.initSet_lt
  have hswept : ∀ w set, set < s.initSetQ + 1 → ((s.step i).word w set).valid = false := by
    intro w set hset
    rw [word_step_of_init hinit]
    split
    · rfl
    · exact hwf.swept hinit w set (by omega)
  by_cases hlast : s.initSetQ = p.sets - 1
  · have hbsy : (s.step i).initBusyQ = false := by simp [step, hlast]
    have hall : ∀ w set, set < p.sets → ((s.step i).word w set).valid = false :=
      fun w set hset => hswept w set (by omega)
    refine ⟨?_, ?_, ?_, ?_⟩
    · simpa [step, hlast] using hlt
    · simp [hbsy]
    · intro _ set hset w _ hw
      simp [hall w set hset] at hw
    · intro _ set hset w hw
      simp [hall w set hset] at hw
  have hbsy : (s.step i).initBusyQ := by simp [step, hinit, hlast]
  have hnxt : (s.step i).initSetQ = s.initSetQ + 1 := by
    simp [step, hinit, hlast]
  refine ⟨?_, ?_, ?_, ?_⟩
  · rw [hnxt]
    omega
  · intro _ w set hset
    exact hswept w set (by rwa [hnxt] at hset)
  · simp [hbsy]
  · simp [hbsy]

section

variable (hwf : s.WellFormed) (hinit : s.initBusyQ = false)

include hwf hinit

/-- Whatever keeps valid bits, tags and replacement ways keeps the directory
well formed. -/
theorem WellFormed.step_of_same_tags
    (hval : ∀ w set, ((s.step i).word w set).valid = (s.word w set).valid)
    (htag : ∀ w set, ((s.step i).word w set).tag = (s.word w set).tag)
    (hreplace : (s.step i).replace.memQ = s.replace.memQ) : (s.step i).WellFormed where
  initSet_lt := by simpa [step, hinit] using hwf.initSet_lt
  swept := by simp [initBusyQ_step hinit]
  uniqueTag := by
    intro _ set hset w w'
    rw [hval, hval, htag, htag]
    exact hwf.uniqueTag hinit set hset w w'
  replace_lt := by
    intro _ set hset w
    rw [hval, hreplace]
    exact hwf.replace_lt hinit set hset w

theorem WellFormed.step_of_no_write (hwr : i.writeValidI = false) : (s.step i).WellFormed :=
  hwf.step_of_same_tags hinit (fun w set => by rw [word_step_of_no_write hinit hwr])
    (fun w set => by rw [word_step_of_no_write hinit hwr])
    (replace_step_of_no_allocate (.inr (by simp [hwr])))

/-- Clearing and recording sharers of a looked-up entry. -/
theorem WellFormed.step_of_update (himg : s.ImageOf line) (hwr : i.writeValidI)
    (halloc : i.writeAllocateI = false) (hover : i.writeOverwriteI = false)
    {w : Fin p.ways} (hent : i.writeEntryI = p.entryOf (p.lineSet line) w)
    (hline : i.writeLineAddrI = line) : (s.step i).WellFormed := by
  have hsame : ∀ w' set, ((s.step i).word w' set).valid = (s.word w' set).valid ∧
        ((s.step i).word w' set).tag = (s.word w' set).tag := by
    intro w' set
    by_cases hreach : p.wayReached (p.lineSet line)
    · rw [word_step_of_reached hinit hwr hent hline hreach]
      split
      · rename_i h
        obtain ⟨rfl, rfl⟩ := h
        rw [normalWriteWord_of_update himg halloc hover hent hreach]
        exact ⟨rfl, rfl⟩
      · exact ⟨rfl, rfl⟩
    · rw [word_step_of_not_reached hinit hent hreach]
      exact ⟨rfl, rfl⟩
  exact hwf.step_of_same_tags hinit (fun w set => (hsame w set).1) (fun w set => (hsame w set).2)
    (replace_step_of_no_allocate (.inr (by simp [halloc])))

/-- Allocating an entry for a line that no way of its set names. -/
theorem WellFormed.step_of_allocate (hwr : i.writeValidI) (halloc : i.writeAllocateI)
    {w : Fin p.ways} (hent : i.writeEntryI = p.entryOf (p.lineSet line) w)
    (hline : i.writeLineAddrI = line) (hmiss : ∀ w, ¬ s.Names line w) : (s.step i).WellFormed := by
  have hreplace : ∀ set, (s.step i).replace.memQ set =
      if set = p.lineSet line then replaceWrite i else s.replace.memQ set := by
    intro set
    simp [step, SnoopFilterWay.step, hinit, hwr, halloc, hline, Function.update_apply]
  have hfresh : ∀ w', (s.word w' (p.lineSet line)).valid →
      (s.word w' (p.lineSet line)).tag ≠ p.lineTag line :=
    fun w' hval htag => hmiss w' ⟨hval, htag⟩
  refine ⟨by simpa [step, hinit] using hwf.initSet_lt, by simp [initBusyQ_step hinit], ?_, ?_⟩
  · intro _ set hset w₁ w₂ hvalid₁ hvalid₂ htag
    by_cases hreach : p.wayReached (p.lineSet line)
    · have hwrd := word_step_of_reached hinit hwr hent hline hreach
      have hnew := normalWriteWord_of_allocate (s := s) halloc
      rw [hwrd] at hvalid₁ htag
      rw [hwrd] at hvalid₂ htag
      by_cases h₁ : w₁ = w ∧ set = p.lineSet line <;>
        by_cases h₂ : w₂ = w ∧ set = p.lineSet line
      · exact h₁.1.trans h₂.1.symm
      · rw [if_pos h₁, if_neg h₂, hnew, hline] at htag
        rw [if_neg h₂] at hvalid₂
        obtain ⟨-, rfl⟩ := h₁
        exact absurd htag.symm (hfresh w₂ hvalid₂)
      · rw [if_neg h₁, if_pos h₂, hnew, hline] at htag
        rw [if_neg h₁] at hvalid₁
        obtain ⟨-, rfl⟩ := h₂
        exact absurd htag (hfresh w₁ hvalid₁)
      · rw [if_neg h₁] at hvalid₁ htag
        rw [if_neg h₂] at hvalid₂ htag
        exact hwf.uniqueTag hinit set hset w₁ w₂ hvalid₁ hvalid₂ htag
    · have hwrd := word_step_of_not_reached (i := i) hinit hent hreach
      rw [hwrd] at hvalid₁ htag
      rw [hwrd] at hvalid₂ htag
      exact hwf.uniqueTag hinit set hset w₁ w₂ hvalid₁ hvalid₂ htag
  · intro _ set hset w₁ hval
    rw [hreplace]
    split
    · exact replaceWrite_lt i hent
    · rename_i hoth
      apply hwf.replace_lt hinit set hset w₁
      rw [word_step_of_write hinit hwr, hline, if_neg (fun h => hoth h.2)] at hval
      exact hval

end

end WellFormed

section Holds

variable {s : SnoopFilterState p} {i : SnoopFilterInput p}
  {line other : BitVec 64} {w : Fin p.ways} {c : PrivateCache}
  {h : Fin p.numHarts}

theorem Holds.step_of_no_write (hholds : s.Holds c line h)
    (hinit : s.initBusyQ = false) (hwr : i.writeValidI = false) : (s.step i).Holds c line h := by
  obtain ⟨w, hname, hbit⟩ := hholds
  refine ⟨w, ⟨?_, ?_⟩, ?_⟩
  · rw [word_step_of_no_write hinit hwr]
    exact hname.valid
  · rw [word_step_of_no_write hinit hwr]
    exact hname.tag
  · rw [word_step_of_no_write hinit hwr]
    exact hbit

theorem names_step_of_no_write (hinit : s.initBusyQ = false) (hwr : i.writeValidI = false) :
    (s.step i).Names line w ↔ s.Names line w := by
  have hwrd := word_step_of_no_write hinit hwr w (p.lineSet line)
  constructor
  · rintro ⟨hval, htag⟩
    exact ⟨hwrd ▸ hval, hwrd ▸ htag⟩
  · rintro ⟨hval, htag⟩
    exact ⟨hwrd.symm ▸ hval, hwrd.symm ▸ htag⟩

/-- Allocation drops only the line whose entry is reused. -/
theorem Holds.step_of_allocate (hholds : s.Holds c other h)
    (hinit : s.initBusyQ = false) (hwr : i.writeValidI)
    (hent : i.writeEntryI = p.entryOf (p.lineSet line) w)
    (hline : i.writeLineAddrI = line)
    (hvic : p.lineSet other = p.lineSet line → ¬ s.Names other w) : (s.step i).Holds c other h := by
  obtain ⟨w', hname, hbit⟩ := hholds
  have hsame : (s.step i).word w' (p.lineSet other) = s.word w' (p.lineSet other) := by
    by_cases hreach : p.wayReached (p.lineSet line)
    · rw [word_step_of_reached hinit hwr hent hline hreach, if_neg]
      rintro ⟨rfl, hset⟩
      exact hvic hset hname
    · exact word_step_of_not_reached hinit hent hreach _ _
  refine ⟨w', ⟨?_, ?_⟩, ?_⟩
  · rw [hsame]
    exact hname.valid
  · rw [hsame]
    exact hname.tag
  · rw [hsame]
    exact hbit

/-- A reached allocation leaves an entry tagged with the line. -/
theorem names_step_of_allocate (hinit : s.initBusyQ = false)
    (hwr : i.writeValidI) (halloc : i.writeAllocateI)
    (hent : i.writeEntryI = p.entryOf (p.lineSet line) w)
    (hline : i.writeLineAddrI = line)
    (hreach : p.wayReached (p.lineSet line)) : (s.step i).Names line w := by
  have hwrd := word_step_of_reached hinit hwr hent hline hreach w (p.lineSet line)
  rw [if_pos ⟨rfl, rfl⟩, normalWriteWord_of_allocate halloc, hline] at hwrd
  constructor <;> rw [hwrd]

/-- The write adds to and clears from the entry of a line that has been looked up. -/
structure Updates (s : SnoopFilterState p) (i : SnoopFilterInput p) (line : BitVec 64)
    (w : Fin p.ways) : Prop where
  ready : s.initBusyQ = false
  image : s.ImageOf line
  write : i.writeValidI
  allocate : i.writeAllocateI = false
  overwrite : i.writeOverwriteI = false
  entry : i.writeEntryI = p.entryOf (p.lineSet line) w
  lineAddr : i.writeLineAddrI = line

/-- The stored sharers after adding to and clearing from a looked-up entry. -/
theorem sharers_step_of_update (hup : s.Updates i line w) (hreach : p.wayReached (p.lineSet line)) :
    ((s.step i).word w (p.lineSet line)).sharers c h =
      (((s.word w (p.lineSet line)).sharers c h || i.writeAdd c h) && !i.writeClear c h) := by
  obtain ⟨hinit, himg, hwr, halloc, hover, hent, hline⟩ := hup
  have hwrd := word_step_of_reached hinit hwr hent hline hreach w (p.lineSet line)
  rw [if_pos ⟨rfl, rfl⟩, normalWriteWord_of_update himg halloc hover hent hreach] at hwrd
  rw [hwrd]
  cases c <;> rfl

theorem Names.step_of_update {w' : Fin p.ways} (hname : s.Names other w')
    (hup : s.Updates i line w) : (s.step i).Names other w' := by
  obtain ⟨hinit, himg, hwr, halloc, hover, hent, hline⟩ := hup
  by_cases hreach : p.wayReached (p.lineSet line)
  · have hwrd := word_step_of_reached hinit hwr hent hline hreach w' (p.lineSet other)
    by_cases hsel : w' = w ∧ p.lineSet other = p.lineSet line
    · rw [if_pos hsel, normalWriteWord_of_update himg halloc hover hent
        hreach, ← hsel.1, ← hsel.2] at hwrd
      constructor
      · rw [hwrd]
        exact hname.valid
      · rw [hwrd]
        exact hname.tag
    rw [if_neg hsel] at hwrd
    constructor
    · rw [hwrd]
      exact hname.valid
    · rw [hwrd]
      exact hname.tag
  have hwrd := word_step_of_not_reached (i := i) hinit hent hreach w' (p.lineSet other)
  constructor
  · rw [hwrd]
    exact hname.valid
  · rw [hwrd]
    exact hname.tag

/-- An update drops a sharer only where it clears that sharer of that line. -/
theorem Holds.step_of_update (hholds : s.Holds c other h) (hup : s.Updates i line w)
    (hname : s.Names line w)
    (hkeep : lineAddr other = lineAddr line → i.writeClear c h = false) :
    (s.step i).Holds c other h := by
  obtain ⟨w', hname', hbit⟩ := hholds
  refine ⟨w', hname'.step_of_update hup, ?_⟩
  by_cases hreach : p.wayReached (p.lineSet line)
  · by_cases hsel : w' = w ∧ p.lineSet other = p.lineSet line
    · obtain ⟨rfl, hset⟩ := hsel
      have htag := hname'.tag
      rw [hset, hname.tag] at htag
      have hclr := hkeep ((p.lineAddr_eq_iff _ _).mpr ⟨htag.symm, hset⟩)
      rw [hset] at hbit ⊢
      rw [sharers_step_of_update hup hreach, hbit, hclr]
      rfl
    · rw [word_step_of_reached hup.ready hup.write hup.entry hup.lineAddr hreach, if_neg hsel]
      exact hbit
  · rw [word_step_of_not_reached hup.ready hup.entry hreach]
    exact hbit

theorem holds_step_of_record (hup : s.Updates i line w)
    (hreach : p.wayReached (p.lineSet line)) (hname : s.Names line w)
    (hadd : i.writeAdd c h) (hclr : i.writeClear c h = false) : (s.step i).Holds c line h := by
  refine ⟨w, hname.step_of_update hup, ?_⟩
  rw [sharers_step_of_update hup hreach, hadd, hclr]
  simp

end Holds

end SnoopFilterState

end OpenRV64
