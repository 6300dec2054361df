/-
Store-to-load value correctness of the load/store queue: what a load takes from
older stores, and what a load that goes to memory has been checked against.
-/
import OpenRV64.LsqStep

namespace OpenRV64

open ModularAge AgeScan
open Bool (and_eq_true not_eq_true not_eq_true' or_eq_true)
open LsqSlot (live)

/-! ## Bytes -/

theorem byteAt_getLsbD (word : BitVec 64) (lane j : Nat) (hj : j < 8) :
    (byteAt word lane).getLsbD j = word.getLsbD (8 * lane + j) := by
  simp [byteAt, hj]

theorem byteAt_setByte (word : BitVec 64) {lane lane' : Nat} (byte : BitVec 8)
    (hlane' : lane' < 8) :
    byteAt (setByte word lane byte) lane' =
      if lane = lane' then byte else byteAt word lane' := by
  apply BitVec.eq_of_getLsbD_eq
  intro j hj
  rw [byteAt_getLsbD _ _ _ hj, setByte]
  simp only [BitVec.getLsbD_or, BitVec.getLsbD_and, BitVec.getLsbD_not,
    BitVec.getLsbD_shiftLeft, BitVec.getLsbD_setWidth, BitVec.getLsbD_allOnes]
  have hbit : 8 * lane' + j < 64 := by omega
  split
  · rename_i heq
    subst heq
    have hwide : j < 64 := by omega
    simp [hbit, hj, hwide]
  rename_i hne
  rw [byteAt_getLsbD _ _ _ hj]
  by_cases hlt : 8 * lane' + j < 8 * lane
  · simp [hbit, hlt]
  · have hfar : ¬ 8 * lane' + j - 8 * lane < 8 := by omega
    have hz : byte.getLsbD (8 * lane' + j - 8 * lane) = false := BitVec.getLsbD_of_ge _ _ (by omega)
    simp [hbit, hlt, hfar, hz]

/-! ## Bytes of an access -/

def accessBytes (size : BitVec 3) : Nat :=
  match size with
  | 0 => 1
  | 1 => 2
  | 2 => 4
  | _ => 8

/-- The access lies in its natural alignment. -/
def Aligned (addr : BitVec 64) (size : BitVec 3) : Prop :=
  (byteOffset addr).toNat % accessBytes size = 0

theorem accessByteMask_getLsbD : ∀ (size offset : BitVec 3) (d : Fin 8),
    d.val < accessBytes size → offset.toNat + d.val < 8 →
      (accessByteMask size offset).getLsbD (offset.toNat + d.val) := by
  decide +kernel

theorem accessBytes_cases : ∀ size : BitVec 3, accessBytes size = 1 ∨
    accessBytes size = 2 ∨ accessBytes size = 4 ∨ accessBytes size = 8 := by
  decide

theorem byteOffset_toNat (addr : BitVec 64) : (byteOffset addr).toNat = addr.toNat % 8 := by
  simp [byteOffset]

theorem wordOf_eq_iff (a b : BitVec 64) : wordOf a = wordOf b ↔ a.toNat / 8 = b.toNat / 8 := by
  rw [← BitVec.toNat_inj]
  simp [wordOf, BitVec.extractLsb'_toNat, Nat.shiftRight_eq_div_pow]
  omega

namespace LsqSlot

variable {p : LsqParams}

/-- The access touches the byte at `addr`. -/
def Requests (slot : LsqSlot p) (addr : BitVec 64) : Prop :=
  (addr - slot.paddr).toNat < accessBytes slot.size

/-- The store writes the byte at `addr`. -/
def WritesTo (slot : LsqSlot p) (addr : BitVec 64) : Prop :=
  wordOf slot.paddr = wordOf addr ∧ slot.wstrb.getLsbD (byteOffset addr).toNat = true

/-- The bytes of an aligned access lie in one doubleword, under the mask. -/
theorem loadMask_of_requests {slot : LsqSlot p} {addr : BitVec 64}
    (halign : Aligned slot.paddr slot.size) (h : slot.Requests addr) :
    wordOf slot.paddr = wordOf addr ∧ slot.loadMask.getLsbD (byteOffset addr).toNat := by
  obtain ⟨d, hd⟩ : ∃ d, d = (addr - slot.paddr).toNat := ⟨_, rfl⟩
  rw [Requests, ← hd] at h
  have haddr : addr = slot.paddr + BitVec.ofNat 64 d := by
    rw [hd, BitVec.ofNat_toNat, BitVec.setWidth_eq, BitVec.add_comm, BitVec.sub_add_cancel]
  rw [Aligned, byteOffset_toNat] at halign
  have hroom : slot.paddr.toNat % 8 + d < 8 := by
    rcases accessBytes_cases slot.size with hsize | hsize | hsize | hsize
    all_goals
      rw [hsize] at h halign
      omega
  have hlt := slot.paddr.isLt
  have hnat : addr.toNat = slot.paddr.toNat + d := by
    rw [haddr, BitVec.toNat_add, BitVec.toNat_ofNat, Nat.add_mod_mod]
    exact Nat.mod_eq_of_lt (by omega)
  constructor
  · rw [wordOf_eq_iff, hnat]
    omega
  · have hmask := accessByteMask_getLsbD slot.size (byteOffset slot.paddr)
      ⟨d, by omega⟩ h (by rw [byteOffset_toNat]; exact hroom)
    rw [loadMask, byteOffset_toNat, hnat]
    rw [byteOffset_toNat] at hmask
    rw [show (slot.paddr.toNat + d) % 8 = slot.paddr.toNat % 8 + d by omega]
    exact hmask

end LsqSlot

namespace LsqState

variable {p : LsqParams} {s : LsqState p}

/-! ## The store scan -/

/-- The store supplies the byte to the load, unless a younger one does. -/
def supplies (s : LsqState p) (load byte store : Nat) : Bool :=
  s.olderStoreOf load store && !s.unknownAddress store &&
    wordOf (s.slots load).paddr == wordOf (s.slots store).paddr &&
    (s.slots load).loadMask.getLsbD byte && (s.slots store).wstrb.getLsbD byte

def younger (s : LsqState p) (k best : Nat) : Bool := isYounger (s.slots k).id (s.slots best).id

/-- The store whose byte the load takes. -/
def byteOwner (s : LsqState p) (load byte count : Nat) : Option Nat :=
  AgeScan.scan (s.supplies load byte) s.younger count

/-- One store changes only the bytes that it takes. -/
theorem scanBytes_spec (load store : Nat) (scan : LoadScan) {n : Nat} (hn : n ≤ 8) :
    (s.scanBytes load store n scan).block = scan.block ∧
      (s.scanBytes load store n scan).olderStore = scan.olderStore ∧ ∀ b, b < 8 →
        let taken := decide (b < n) && s.takesByte load store scan b
        (s.scanBytes load store n scan).ownerValid b = (taken || scan.ownerValid b) ∧
          (s.scanBytes load store n scan).ownerId b =
            (if taken then (s.slots store).id else scan.ownerId b) ∧
          byteAt (s.scanBytes load store n scan).forwardWord b =
            (if taken then byteAt (s.slots store).wdata b
            else byteAt scan.forwardWord b) := by
  induction n with
  | zero => simp [scanBytes]
  | succ n ih =>
    obtain ⟨hblock, holder, hbytes⟩ := ih (by omega)
    have hself := hbytes n (by omega)
    simp only [Nat.lt_irrefl, decide_false, Bool.false_and, Bool.false_or, if_low] at hself
    have htake : s.takesByte load store (s.scanBytes load store n scan) n =
        s.takesByte load store scan n := by
      rw [takesByte, takesByte, hself.1, hself.2.1]
    rw [scanBytes]
    simp only [htake]
    split
    · rename_i htaken
      refine ⟨hblock, holder, fun b hb => ?_⟩
      by_cases hbn : b = n
      · subst hbn
        simp [htaken, byteAt_setByte _ _ hb]
      · have hiff : (b < n + 1) ↔ b < n := by omega
        have hlow := hbytes b hb
        simp only [hiff, if_neg hbn, byteAt_setByte _ _ hb, if_neg (Ne.symm hbn)]
        exact hlow
    rename_i htaken
    refine ⟨hblock, holder, fun b hb => ?_⟩
    by_cases hbn : b = n
    · subst hbn
      simpa [htaken] using hself
    · have hiff : (b < n + 1) ↔ b < n := by omega
      simp only [hiff]
      exact hbytes b hb

/-- The bytes of the scan are those of the byte owners. -/
structure OwnersAgree (s : LsqState p) (load count : Nat) (scan : LoadScan) (b : Nat) : Prop where
  valid : scan.ownerValid b = (s.byteOwner load b count).isSome
  owner : ∀ k, s.byteOwner load b count = some k → scan.ownerId b = (s.slots k).id ∧
      byteAt scan.forwardWord b = byteAt (s.slots k).wdata b
  noOwner : s.byteOwner load b count = none → byteAt scan.forwardWord b = 0

/-- A store that supplies nothing changes no byte. -/
theorem OwnersAgree.skip {load count b : Nat} {scan scan' : LoadScan}
    (h : OwnersAgree s load count scan b)
    (hno : s.supplies load b count = false)
    (hval : scan'.ownerValid b = scan.ownerValid b)
    (hid : scan'.ownerId b = scan.ownerId b)
    (hwrd : byteAt scan'.forwardWord b = byteAt scan.forwardWord b) :
    OwnersAgree s load (count + 1) scan' b := by
  have hsame : s.byteOwner load b (count + 1) = s.byteOwner load b count := by
    rw [byteOwner, byteOwner, AgeScan.scan]
    simp only [hno, Bool.false_and, if_low]
    split
    · rename_i hnone
      exact hnone.symm
    · rename_i best hbest
      exact hbest.symm
  constructor
  · rw [hsame, hval, h.valid]
  · intro k hk
    rw [hsame] at hk
    rw [hid, hwrd]
    exact h.owner k hk
  · intro hnone
    rw [hsame] at hnone
    rw [hwrd]
    exact h.noOwner hnone

/-- A store of the load's doubleword takes the bytes that it supplies and whose
owner it beats. -/
theorem OwnersAgree.take {load count b : Nat} {scan : LoadScan} (hb : b < 8)
    (h : OwnersAgree s load count scan b)
    (holder : s.olderStoreOf load count)
    (hknown : s.unknownAddress count = false)
    (hwrd : wordOf (s.slots load).paddr = wordOf (s.slots count).paddr) :
    OwnersAgree s load (count + 1) (s.scanBytes load count 8 scan) b := by
  obtain ⟨-, -, hbytes⟩ := scanBytes_spec (s := s) load count scan (le_refl 8)
  obtain ⟨hval, hid, hdata⟩ := hbytes b hb
  have hsupplies : s.supplies load b count =
      ((s.slots load).loadMask.getLsbD b && (s.slots count).wstrb.getLsbD b) := by
    simp [supplies, holder, hknown, hwrd]
  cases hmat : s.supplies load b count with
  | false =>
    rw [hmat, eq_comm] at hsupplies
    have htake : s.takesByte load count scan b = false := by
      rw [takesByte, hsupplies, Bool.false_and]
    simp only [htake, Bool.and_false, Bool.false_or, Bool.false_eq_true, if_false] at hval hid hdata
    exact h.skip hmat hval hid hdata
  | true =>
    rw [hmat, eq_comm] at hsupplies
    have htake : s.takesByte load count scan b = (!(s.byteOwner load b count).isSome ||
          isYounger (s.slots count).id (scan.ownerId b)) := by
      rw [takesByte, hsupplies, Bool.true_and, h.valid]
    rw [htake] at hval hid hdata
    simp only [hb, decide_true, Bool.true_and] at hval hid hdata
    cases hown : s.byteOwner load b count with
    | none =>
      have hnxt : s.byteOwner load b (count + 1) = some count := by
        rw [byteOwner] at hown ⊢
        simp [AgeScan.scan, hown, hmat]
      simp only [hown, Option.isSome_none, Bool.not_false, Bool.true_or, if_true] at hval hid hdata
      exact ⟨by rw [hnxt, hval]; rfl, fun k hk => by
        rw [hnxt] at hk
        cases hk
        exact ⟨hid, hdata⟩, fun hnone => by rw [hnxt] at hnone; cases hnone⟩
    | some best =>
      obtain ⟨hbestId, hbestData⟩ := h.owner best hown
      have hnxt : s.byteOwner load b (count + 1) =
          if s.younger count best then some count else some best := by
        rw [byteOwner] at hown ⊢
        simp [AgeScan.scan, hown, hmat]
      simp only [hown, Option.isSome_some, Bool.not_true, Bool.false_or, hbestId] at hval hid hdata
      change _ = if s.younger count best then _ else _ at hid
      change _ = if s.younger count best then _ else _ at hdata
      have hscan : scan.ownerValid b := by rw [h.valid, hown]; rfl
      rw [hscan, Bool.or_true] at hval
      cases hyoung : s.younger count best with
      | true =>
        simp only [hyoung, if_true] at hnxt hid hdata
        exact ⟨by rw [hnxt, hval]; rfl, fun k hk => by
          rw [hnxt] at hk
          cases hk
          exact ⟨hid, hdata⟩, fun hnone => by rw [hnxt] at hnone; cases hnone⟩
      | false =>
        simp only [hyoung, if_low] at hnxt hid hdata
        exact ⟨by rw [hnxt, hval]; rfl, fun k hk => by
          rw [hnxt] at hk
          cases hk
          exact ⟨hid, hdata.trans hbestData⟩, fun hnone => by rw [hnxt] at hnone; cases hnone⟩

theorem scanStores_owners (load count : Nat) {b : Nat} (hb : b < 8) :
    OwnersAgree s load count (s.scanStores load count) b := by
  induction count with
  | zero =>
    constructor
    · rfl
    · intro k hk
      cases hk
    · intro _
      simp [scanStores, byteAt]
  | succ count ih =>
    rw [scanStores, scanStore]
    split
    · rename_i holder
      split
      · rename_i hunknown
        exact ih.skip (by simp [supplies, hunknown]) rfl rfl rfl
      rename_i hknown
      rw [not_eq_true] at hknown
      split
      · rename_i hwrd
        have hkeep : OwnersAgree s load count
            { s.scanStores load count with olderStore := true } b :=
          ⟨ih.valid, ih.owner, ih.noOwner⟩
        exact hkeep.take hb holder hknown hwrd
      · rename_i hwrd
        exact ih.skip (by simp [supplies, hwrd]) rfl rfl rfl
    · rename_i holder
      exact ih.skip (by simp [supplies, holder]) rfl rfl rfl

theorem scanStores_olderStore (load count : Nat) :
    (s.scanStores load count).olderStore ↔ ∃ k < count, s.olderStoreOf load k := by
  induction count with
  | zero => simp [scanStores]
  | succ count ih =>
    have hstep : (s.scanStores load (count + 1)).olderStore =
        (s.olderStoreOf load count || (s.scanStores load count).olderStore) := by
      rw [scanStores, scanStore]
      split
      · rename_i holder
        rw [holder, Bool.true_or]
        split
        · rfl
        · split
          · exact (scanBytes_spec load count _ (le_refl 8)).2.1
          · rfl
      · rename_i holder
        rw [not_eq_true] at holder
        rw [holder, Bool.false_or]
    rw [hstep, or_eq_true, ih, Nat.exists_lt_succ_right, or_comm]

theorem scanStores_block (load count : Nat) : (s.scanStores load count).block ↔
      ∃ k < count, s.olderStoreOf load k ∧ s.unknownAddress k := by
  induction count with
  | zero => simp [scanStores]
  | succ count ih =>
    have hstep : (s.scanStores load (count + 1)).block =
        ((s.olderStoreOf load count && s.unknownAddress count) ||
          (s.scanStores load count).block) := by
      rw [scanStores, scanStore]
      split
      · rename_i holder
        rw [holder, Bool.true_and]
        split
        · rename_i hunknown
          rw [hunknown, Bool.true_or]
        rename_i hunknown
        rw [not_eq_true] at hunknown
        rw [hunknown, Bool.false_or]
        split
        · exact (scanBytes_spec load count _ (le_refl 8)).1
        · rfl
      · rename_i holder
        rw [not_eq_true] at holder
        rw [holder, Bool.false_and, Bool.false_or]
    rw [hstep, or_eq_true, ih, and_eq_true, Nat.exists_lt_succ_right, or_comm]

/-! ## What the scan decides -/

/-- The load has no reason to wait and takes no byte from a store. -/
theorem clear_of_not_blocked {load : Nat} (hscanned : s.scanned load)
    (hblock : s.loadBlock load = false) (hfwd : s.loadForward load = false) :
    (∀ k < p.depth, s.olderStoreOf load k →
      s.unknownAddress k = false ∧ ∀ b < 8, s.supplies load b k = false) ∧
    ((s.slots load).cacheable = false → ∀ k < p.depth, s.olderStoreOf load k = false) := by
  simp only [loadBlock, loadForward, hscanned, Bool.true_and, Bool.or_eq_false_iff,
    Bool.and_eq_false_iff, Bool.not_eq_false'] at hblock hfwd
  obtain ⟨⟨hscanBlock, hpartial⟩, hdevice⟩ := hblock
  have huncovered : s.someByteCovered load = false := by
    by_contra hcon
    rw [Bool.not_eq_false] at hcon
    simp_all
  constructor
  · intro k hk holder
    constructor
    · by_contra hcon
      have hblocked := (scanStores_block (s := s) load p.depth).mpr
        ⟨k, hk, holder, by simpa using hcon⟩
      rw [loadScan] at hscanBlock
      rw [hscanBlock] at hblocked
      cases hblocked
    · intro b hb
      by_contra hcon
      rw [Bool.not_eq_false] at hcon
      have hown := (scanStores_owners (s := s) load p.depth hb).valid
      have hsome : (s.byteOwner load b p.depth).isSome := by
        rw [Option.isSome_iff_ne_none]
        intro hnone
        rw [scan_eq_none_iff.mp hnone k hk] at hcon
        cases hcon
      rw [hsome] at hown
      have hmask : (s.slots load).loadMask.getLsbD b := by
        simp only [supplies, and_eq_true] at hcon
        exact hcon.1.2
      have hcovered : s.someByteCovered load := by
        rw [someByteCovered, List.any_eq_true]
        exact ⟨b, List.mem_range.mpr hb, by
          rw [loadCoverMask, loadScan, hown, hmask]
          rfl⟩
      rw [huncovered] at hcovered
      cases hcovered
  · intro hdeviceLoad k hk
    rw [deviceWaits, hdeviceLoad, Bool.not_false, Bool.and_true] at hdevice
    by_contra hcon
    have holder := (scanStores_olderStore (s := s) load p.depth).mpr ⟨k, hk, by simpa using hcon⟩
    rw [loadScan] at hdevice
    rw [hdevice] at holder
    cases holder

/-- Every byte of a forwarded load has an owner, and all older stores are known. -/
theorem owned_of_forward {load : Nat} (h : s.loadForward load) :
    s.scanned load ∧ (∀ k < p.depth, s.olderStoreOf load k → s.unknownAddress k = false) ∧
      ∀ b < 8, (s.slots load).loadMask.getLsbD b → ∃ k, s.byteOwner load b p.depth = some k ∧
          byteAt (s.loadForwardWord load) b = byteAt (s.slots k).wdata b := by
  simp only [loadForward, and_eq_true, not_eq_true'] at h
  obtain ⟨⟨⟨⟨hscanned, -⟩, hevery⟩, hblock⟩, -⟩ := h
  refine ⟨hscanned, ?_, ?_⟩
  · intro k hk holder
    by_contra hcon
    have hblocked := (scanStores_block (s := s) load p.depth).mpr
      ⟨k, hk, holder, by simpa using hcon⟩
    rw [loadScan] at hblock
    rw [hblock] at hblocked
    cases hblocked
  · intro b hb hmask
    have hcover : s.loadCoverMask load b := by
      rw [everyByteCovered, List.all_eq_true] at hevery
      have hbyte := hevery b (List.mem_range.mpr hb)
      simpa [hmask] using hbyte
    have hagr := scanStores_owners (s := s) load p.depth hb
    rw [loadCoverMask, loadScan, hagr.valid, Option.isSome_iff_exists] at hcover
    obtain ⟨k, hk⟩ := hcover
    refine ⟨k, hk, ?_⟩
    rw [loadForwardWord, if_pos hscanned]
    exact (hagr.owner k hk).2

/-! ## Program order -/

/-- `age` numbers the instructions in program order: the live identifiers are
the numbers modulo the identifier space, and lie in one half of it. -/
structure ProgramOrder (s : LsqState p) (age : Nat → Nat) : Prop where
  id : ∀ k, k < p.depth → (s.slots k).valid = true → (s.slots k).id = idOf instrIdWidth (age k)
  distinct : ∀ j k, j < p.depth → k < p.depth → (s.slots j).valid = true →
    (s.slots k).valid = true → age j = age k → j = k
  window : ∃ first, ∀ k, k < p.depth → (s.slots k).valid = true →
    first ≤ age k ∧ age k < first + 2 ^ (instrIdWidth - 1)

/-- An entry of a store that stands before the load in program order. -/
def OlderStore (s : LsqState p) (age : Nat → Nat) (load store : Nat) : Prop :=
  store < p.depth ∧ (s.slots store).live = true ∧ (s.slots store).store = true ∧
    age store < age load

/-- The youngest older store that writes the byte at `addr`. -/
def YoungestWriter (s : LsqState p) (age : Nat → Nat) (load : Nat)
    (addr : BitVec 64) (store : Nat) : Prop :=
  OlderStore s age load store ∧ (s.slots store).WritesTo addr ∧
    ∀ other, OlderStore s age load other → (s.slots other).WritesTo addr → age other ≤ age store

namespace ProgramOrder

variable {age : Nat → Nat}

theorem younger_eq (h : ProgramOrder s age) {j k : Nat} (hj : j < p.depth)
    (hk : k < p.depth) (hvj : (s.slots j).valid)
    (hvk : (s.slots k).valid) :
    isYounger (s.slots j).id (s.slots k).id = decide (age k < age j) := by
  obtain ⟨first, hwindow⟩ := h.window
  have hwj := hwindow j hj hvj
  have hwk := hwindow k hk hvk
  rw [h.id j hj hvj, h.id k hk hvk]
  exact isYounger_idOf (by decide) (by omega) (by omega)

theorem orders (h : ProgramOrder s age) {candidate : Nat → Bool}
    (hval : ∀ k, candidate k → (s.slots k).valid) :
    AgeScan.Orders candidate s.older p.depth age := by
  intro j k hj hk hcj hck
  exact h.younger_eq hk hj (hval k hck) (hval j hcj)

theorem olderStore_iff (h : ProgramOrder s age) {load store : Nat}
    (hload : load < p.depth) (hval : (s.slots load).valid)
    (hstr : store < p.depth) : s.olderStoreOf load store ↔ OlderStore s age load store := by
  simp only [olderStoreOf, OlderStore, and_eq_true, and_assoc]
  constructor
  · intro hold
    obtain ⟨hlive, hisStore, hyoung⟩ := hold
    have hsv : (s.slots store).valid := by
      rw [live, and_eq_true] at hlive
      exact hlive.1
    rw [h.younger_eq hload hstr hval hsv, decide_eq_true_iff] at hyoung
    exact ⟨hstr, hlive, hisStore, hyoung⟩
  · intro hold
    obtain ⟨-, hlive, hisStore, hage⟩ := hold
    have hsv : (s.slots store).valid := by
      rw [live, and_eq_true] at hlive
      exact hlive.1
    refine ⟨hlive, hisStore, ?_⟩
    rw [h.younger_eq hload hstr hval hsv]
    exact decide_eq_true hage

theorem supplies_valid {load b k : Nat} (h : s.supplies load b k) : (s.slots k).valid := by
  simp only [supplies, olderStoreOf, live, and_eq_true] at h
  exact h.1.1.1.1.1.1.1

/-- Among the stores that supply a byte the younger one wins. -/
theorem owner_orders (h : ProgramOrder s age) (load b : Nat) :
    AgeScan.Orders (s.supplies load b) s.younger p.depth (fun k => OrderDual.toDual (age k)) := by
  intro j k hj hk hcj hck
  exact h.younger_eq hj hk (supplies_valid hcj) (supplies_valid hck)

/-- The owner of a byte is the youngest of the stores that supply it. -/
theorem byteOwner_youngest (h : ProgramOrder s age) {load b k : Nat}
    (hk : s.byteOwner load b p.depth = some k) {other : Nat}
    (hoth : other < p.depth) (hsupplies : s.supplies load b other) : age other ≤ age k :=
  scan_least (h.owner_orders load b) hk hoth hsupplies

end ProgramOrder

/-! ## Store-to-load correctness -/

/-- A load completes locally with forwarded data.  An entry that was allocated
with an exception completes by it instead. -/
structure ForwardCompletes (s : LsqState p) (i : LsqInput p) (load : Nat) : Prop where
  result : s.resultValidO i = true
  isLocal : s.accessRespResult i = false
  index : s.localIndex i = load
  forward : s.loadForward load = true
  noException : (s.slots load).immediate = false

/-- A load is presented to memory. -/
structure LoadPresented (s : LsqState p) (i : LsqInput p) (load : Nat) : Prop where
  request : s.reqValidO i = true
  index : s.requestIndex i = load
  isLoad : (s.slots load).store = false

/-- The queue with its slots rearranged. -/
structure Rearranged (perm : Equiv.Perm Nat) (s s' : LsqState p) : Prop where
  range : ∀ k, perm k < p.depth ↔ k < p.depth
  slots : ∀ k, s'.slots (perm k) = s.slots k

/-- Loads take the bytes of the youngest older stores, reach memory only past
stores that are known to be elsewhere, and none of it depends on slot numbers. -/
structure StoreToLoad (s : LsqState p) (i : LsqInput p) (age : Nat → Nat) : Prop where
  forwarded : ∀ load, ForwardCompletes s i load → ∀ addr,
    (s.slots load).Requests addr → ∃ store, YoungestWriter s age load addr store ∧
      byteAt (s.resultRdataO i) (byteOffset addr).toNat =
        byteAt (s.slots store).wdata (byteOffset addr).toNat
  forwardedKnown : ∀ load, ForwardCompletes s i load → ∀ store,
    OlderStore s age load store → s.unknownAddress store = false
  presented : ∀ load, LoadPresented s i load → ∀ store,
    OlderStore s age load store → s.unknownAddress store = false ∧
      ∀ addr, (s.slots load).Requests addr → ¬ (s.slots store).WritesTo addr
  uncacheable : ∀ load, LoadPresented s i load → (s.slots load).cacheable = false →
      (∀ store, ¬ OlderStore s age load store) ∧ (s.slots load).orderMatch i = true
  slotFree : ∀ perm s', Rearranged perm s s' →
    (∀ load, load < p.depth → s'.loadBlock (perm load) = s.loadBlock load ∧
      s'.loadForward (perm load) = s.loadForward load ∧
      ∀ b, b < 8 → byteAt (s'.loadForwardWord (perm load)) b = byteAt (s.loadForwardWord load) b) ∧
    s'.requestScan i = (s.requestScan i).map perm ∧ s'.localScan i = (s.localScan i).map perm

section StoreToLoad

variable {i : LsqInput p} {age : Nat → Nat}

theorem scanned_valid {load : Nat} (h : s.scanned load) : (s.slots load).valid := by
  simp only [scanned, live, and_eq_true] at h
  exact h.1.1.1.1

/-- A store of the program that writes a requested byte supplies it. -/
theorem supplies_of_writesTo (h : ProgramOrder s age) {load store : Nat}
    {addr : BitVec 64} (hload : load < p.depth)
    (hval : (s.slots load).valid)
    (halign : Aligned (s.slots load).paddr (s.slots load).size)
    (hrequests : (s.slots load).Requests addr)
    (holder : OlderStore s age load store)
    (hknown : s.unknownAddress store = false)
    (hwrs : (s.slots store).WritesTo addr) : s.supplies load (byteOffset addr).toNat store := by
  obtain ⟨hwrd, hmask⟩ := LsqSlot.loadMask_of_requests halign hrequests
  have hold := (h.olderStore_iff hload hval holder.1).mpr holder
  simp [supplies, hold, hknown, hwrd, hwrs.1, hmask, hwrs.2]

/-- The load accesses that the scan looks at are aligned. -/
def LoadsAligned (s : LsqState p) : Prop :=
  ∀ k, k < p.depth → s.scanned k = true → (s.slots k).immediate = false →
    Aligned (s.slots k).paddr (s.slots k).size

theorem ForwardCompletes.candidate {load : Nat} (hf : ForwardCompletes s i load) :
    load < p.depth ∧ s.localCandidate i load := by
  have hval := hf.result
  rw [resultValidO, hf.isLocal, Bool.false_or, localFound, Option.isSome_iff_exists] at hval
  obtain ⟨k, hk⟩ := hval
  have hidx := hf.index
  rw [localIndex, hk, Option.getD_some] at hidx
  subst hidx
  exact scan_some hk

theorem forwarded_of_programOrder (h : ProgramOrder s age)
    (halign : LoadsAligned s) {load : Nat} (hf : ForwardCompletes s i load)
    {addr : BitVec 64} (hrequests : (s.slots load).Requests addr) :
    ∃ store, YoungestWriter s age load addr store ∧
      byteAt (s.resultRdataO i) (byteOffset addr).toNat =
        byteAt (s.slots store).wdata (byteOffset addr).toNat := by
  have hload := hf.candidate.1
  obtain ⟨hscanned, hknown, hbytes⟩ := owned_of_forward hf.forward
  have hval := scanned_valid hscanned
  have hload_aligned := halign load hload hscanned hf.noException
  obtain ⟨hwrd, hmask⟩ := LsqSlot.loadMask_of_requests hload_aligned hrequests
  have hlane : (byteOffset addr).toNat < 8 := (byteOffset addr).isLt
  obtain ⟨store, hown, hdata⟩ := hbytes _ hlane hmask
  obtain ⟨hstr, hsupplies⟩ := scan_some hown
  have hparts := hsupplies
  simp only [supplies, and_eq_true, beq_iff_eq] at hparts
  obtain ⟨⟨⟨⟨holder, -⟩, hsame⟩, -⟩, hstrobe⟩ := hparts
  refine ⟨store, ⟨(h.olderStore_iff hload hval hstr).mp holder,
    ⟨hsame.symm.trans hwrd, hstrobe⟩, ?_⟩, ?_⟩
  · intro other hoth hwrs
    have hotherKnown := hknown other hoth.1 ((h.olderStore_iff hload hval hoth.1).mpr hoth)
    exact h.byteOwner_youngest hown hoth.1
      (supplies_of_writesTo h hload hval hload_aligned hrequests hoth hotherKnown hwrs)
  · rw [resultRdataO, hf.isLocal, if_low, hf.index, if_pos hf.forward, hdata]

theorem LoadPresented.candidate {load : Nat} (hp : LoadPresented s i load) :
    load < p.depth ∧ s.requestCandidate i load := by
  have hval := hp.request
  rw [reqValidO, and_eq_true, and_eq_true, requestFound, Option.isSome_iff_exists] at hval
  obtain ⟨⟨⟨k, hk⟩, -⟩, -⟩ := hval
  have hidx := hp.index
  rw [requestIndex, hk, Option.getD_some] at hidx
  subst hidx
  exact scan_some hk

/-- What the request scan has established for a load. -/
theorem LoadPresented.checked {load : Nat} (hp : LoadPresented s i load) :
    s.scanned load ∧ (s.slots load).immediate = false ∧
      s.loadBlock load = false ∧ s.loadForward load = false ∧
      ((s.slots load).cacheable ∨ (s.slots load).orderMatch i) := by
  have hcand := hp.candidate.2
  simp only [requestCandidate, hp.isLoad, if_low, and_eq_true, not_eq_true', or_eq_true] at hcand
  obtain ⟨⟨⟨⟨⟨⟨⟨hval, hkill⟩, -⟩, himm⟩, hflt⟩, hdone⟩, -⟩, ⟨hblock, hfwd⟩, horder⟩ := hcand
  refine ⟨?_, himm, hblock, hfwd, horder⟩
  simp [scanned, live, hval, hkill, hp.isLoad, hdone, hflt]

theorem presented_of_programOrder (h : ProgramOrder s age)
    (halign : LoadsAligned s) {load store : Nat} (hp : LoadPresented s i load)
    (holder : OlderStore s age load store) :
    s.unknownAddress store = false ∧
      ∀ addr, (s.slots load).Requests addr → ¬ (s.slots store).WritesTo addr := by
  obtain ⟨hload, -⟩ := hp.candidate
  obtain ⟨hscanned, himm, hblock, hfwd, -⟩ := hp.checked
  have hval := scanned_valid hscanned
  have hclr := (clear_of_not_blocked hscanned hblock hfwd).1 store holder.1
    ((h.olderStore_iff hload hval holder.1).mpr holder)
  refine ⟨hclr.1, fun addr hrequests hwrs => ?_⟩
  have hsupplies := supplies_of_writesTo h hload hval
    (halign load hload hscanned himm) hrequests holder hclr.1 hwrs
  rw [hclr.2 _ (byteOffset addr).isLt] at hsupplies
  cases hsupplies

theorem uncacheable_of_programOrder (h : ProgramOrder s age) {load : Nat}
    (hp : LoadPresented s i load) (hdevice : (s.slots load).cacheable = false) :
    (∀ store, ¬ OlderStore s age load store) ∧ (s.slots load).orderMatch i := by
  obtain ⟨hload, -⟩ := hp.candidate
  obtain ⟨hscanned, -, hblock, hfwd, horder⟩ := hp.checked
  have hval := scanned_valid hscanned
  constructor
  · intro store holder
    have hnone := (clear_of_not_blocked hscanned hblock hfwd).2 hdevice store holder.1
    rw [(h.olderStore_iff hload hval holder.1).mpr holder] at hnone
    cases hnone
  · rcases horder with hcach | hmat
    · rw [hdevice] at hcach
      cases hcach
    · exact hmat

/-! ### Rearranging the slots -/

theorem Rearranged.programOrder {perm : Equiv.Perm Nat} {s' : LsqState p}
    (hr : Rearranged perm s s') (h : ProgramOrder s age) :
    ProgramOrder s' (fun k => age (perm.symm k)) := by
  have hslots : ∀ k, s'.slots k = s.slots (perm.symm k) := by
    intro k
    rw [← hr.slots, perm.apply_symm_apply]
  have hrng : ∀ k < p.depth, perm.symm k < p.depth := by
    intro k hk
    rw [← hr.range, perm.apply_symm_apply]
    exact hk
  obtain ⟨first, hwindow⟩ := h.window
  constructor
  · intro k hk hval
    rw [hslots] at hval ⊢
    exact h.id _ (hrng k hk) hval
  · intro j k hj hk hvj hvk hage
    rw [hslots] at hvj hvk
    exact perm.symm.injective (h.distinct _ _ (hrng j hj) (hrng k hk) hvj hvk hage)
  · refine ⟨first, fun k hk hval => ?_⟩
    rw [hslots] at hval
    exact hwindow _ (hrng k hk) hval

namespace Rearranged

variable {perm : Equiv.Perm Nat} {s' : LsqState p}

section

variable (hr : Rearranged perm s s') (load : Nat)
include hr

theorem scan_eq (h : ProgramOrder s age) {candidate candidate' : Nat → Bool}
    (hcand : ∀ k < p.depth, candidate' (perm k) = candidate k)
    (hval : ∀ k, candidate k → (s.slots k).valid)
    (hval' : ∀ k, candidate' k → (s'.slots k).valid) :
    AgeScan.scan candidate' s'.older p.depth =
      (AgeScan.scan candidate s.older p.depth).map perm := by
  apply scan_perm perm hr.range hcand ?_ (h.orders hval) ((hr.programOrder h).orders hval')
  · intro j k hj hk hcj hck hage
    exact h.distinct j k hj hk (hval j hcj) (hval k hck) hage
  · intro k _
    rw [perm.symm_apply_apply]

theorem supplies_eq (b k : Nat) : s'.supplies (perm load) b (perm k) = s.supplies load b k := by
  simp only [supplies, olderStoreOf, unknownAddress, hr.slots]

theorem byteOwner_eq (h : ProgramOrder s age) (load b : Nat) :
    s'.byteOwner (perm load) b p.depth = (s.byteOwner load b p.depth).map perm := by
  apply scan_perm perm hr.range (fun k _ => hr.supplies_eq load b k) ?_
    (h.owner_orders load b) ((hr.programOrder h).owner_orders (perm load) b)
  · intro j k hj hk hcj hck hage
    exact h.distinct j k hj hk (ProgramOrder.supplies_valid hcj)
      (ProgramOrder.supplies_valid hck) hage
  · intro k _
    rw [perm.symm_apply_apply]

theorem exists_iff {P P' : Nat → Prop} (hP : ∀ k, P' (perm k) ↔ P k) :
    (∃ k < p.depth, P' k) ↔ ∃ k < p.depth, P k := by
  constructor
  · intro h
    obtain ⟨k, hk, hold⟩ := h
    refine ⟨perm.symm k, ?_, ?_⟩
    · rw [← hr.range, perm.apply_symm_apply]
      exact hk
    · rw [← hP, perm.apply_symm_apply]
      exact hold
  · intro h
    obtain ⟨k, hk, hold⟩ := h
    exact ⟨perm k, (hr.range k).mpr hk, (hP k).mpr hold⟩

theorem loadScan_olderStore :
    (s'.loadScan (perm load)).olderStore = (s.loadScan load).olderStore := by
  rw [Bool.eq_iff_iff, loadScan, loadScan, scanStores_olderStore, scanStores_olderStore]
  apply hr.exists_iff
  intro k
  simp only [olderStoreOf, hr.slots]

theorem loadScan_block : (s'.loadScan (perm load)).block = (s.loadScan load).block := by
  rw [Bool.eq_iff_iff, loadScan, loadScan, scanStores_block, scanStores_block]
  apply hr.exists_iff
  intro k
  simp only [olderStoreOf, unknownAddress, hr.slots]

theorem loadCoverMask_eq (h : ProgramOrder s age) (load : Nat) {b : Nat} (hb : b < 8) :
    s'.loadCoverMask (perm load) b = s.loadCoverMask load b := by
  rw [loadCoverMask, loadCoverMask, loadScan, loadScan,
    (scanStores_owners (perm load) p.depth hb).valid,
    (scanStores_owners load p.depth hb).valid, hr.byteOwner_eq h, Option.isSome_map]

theorem scanned_eq : s'.scanned (perm load) = s.scanned load := by
  simp only [scanned, hr.slots]

end

section

variable (hr : Rearranged perm s s') (h : ProgramOrder s age) (load : Nat)
include hr h

theorem covered_eq : s'.someByteCovered (perm load) = s.someByteCovered load ∧
      s'.everyByteCovered (perm load) = s.everyByteCovered load := by
  have hmask : ∀ b, ¬ b < 8 → (s.slots load).loadMask.getLsbD b = false :=
    fun b hb => BitVec.getLsbD_of_ge _ _ (by omega)
  constructor
  · simp only [someByteCovered, hr.slots]
    congr 1
    funext b
    by_cases hb : b < 8
    · rw [hr.loadCoverMask_eq h load hb]
    · rw [hmask b hb, Bool.and_false, Bool.and_false]
  · simp only [everyByteCovered, hr.slots]
    congr 1
    funext b
    by_cases hb : b < 8
    · rw [hr.loadCoverMask_eq h load hb]
    · rw [hmask b hb, Bool.not_false, Bool.true_or, Bool.true_or]

theorem load_eq : s'.loadBlock (perm load) = s.loadBlock load ∧
      s'.loadForward (perm load) = s.loadForward load := by
  obtain ⟨hsome, hevery⟩ := hr.covered_eq h load
  simp only [loadBlock, loadForward, deviceWaits, hr.scanned_eq,
    hr.loadScan_olderStore, hr.loadScan_block, hr.slots, hsome, hevery, and_self]

theorem loadForwardWord_eq {b : Nat} (hb : b < 8) :
    byteAt (s'.loadForwardWord (perm load)) b = byteAt (s.loadForwardWord load) b := by
  rw [loadForwardWord, loadForwardWord, hr.scanned_eq]
  split
  · have hagr := scanStores_owners (s := s) load p.depth hb
    have hagr' := scanStores_owners (s := s') (perm load) p.depth hb
    have hown := hr.byteOwner_eq h load b
    cases hs : s.byteOwner load b p.depth with
    | none =>
      rw [hs, Option.map_none] at hown
      rw [loadScan, loadScan, hagr.noOwner hs, hagr'.noOwner hown]
    | some store =>
      rw [hs, Option.map_some] at hown
      rw [loadScan, loadScan, (hagr.owner _ hs).2, (hagr'.owner _ hown).2, hr.slots]
  · rfl

theorem requestScan_eq (i : LsqInput p) : s'.requestScan i = (s.requestScan i).map perm := by
  apply hr.scan_eq h
  · intro k _
    obtain ⟨hblock, hfwd⟩ := hr.load_eq h k
    simp only [requestCandidate, hr.slots, hblock, hfwd]
  · intro k hk
    simp only [requestCandidate, and_eq_true] at hk
    exact hk.1.1.1.1.1.1.1
  · intro k hk
    simp only [requestCandidate, and_eq_true] at hk
    exact hk.1.1.1.1.1.1.1

theorem postedStoreReports_eq (i : LsqInput p) (k : Nat) :
    s'.postedStoreReports i (perm k) = s.postedStoreReports i k := by
  have hscan := hr.requestScan_eq h i
  have hfire : (s'.reqFire i && s'.requestIndex i == perm k) =
      (s.reqFire i && s.requestIndex i == k) := by
    simp only [reqFire, reqValidO, requestFound, requestIndex, hscan, Option.isSome_map]
    cases s.requestScan i with
    | none => rfl
    | some j =>
      have hbeq : (perm j == perm k) = (j == k) := by
        rw [Bool.eq_iff_iff, beq_iff_eq, beq_iff_eq, perm.apply_eq_iff_eq]
      simp [hbeq]
  simp only [postedStoreReports, hr.slots, hfire]

theorem localScan_eq (i : LsqInput p) : s'.localScan i = (s.localScan i).map perm := by
  apply hr.scan_eq h
  · intro k _
    obtain ⟨-, hfwd⟩ := hr.load_eq h k
    simp only [localCandidate, squashVictim, hr.slots, hfwd, hr.postedStoreReports_eq h]
  · intro k hk
    simp only [localCandidate, and_eq_true] at hk
    exact hk.1.1.1.1
  · intro k hk
    simp only [localCandidate, and_eq_true] at hk
    exact hk.1.1.1.1

end

end Rearranged

theorem storeToLoad_of_programOrder (h : ProgramOrder s age)
    (halign : LoadsAligned s) (i : LsqInput p) : StoreToLoad s i age where
  forwarded load hf addr hrequests := forwarded_of_programOrder h halign hf hrequests
  forwardedKnown load hf store holder := by
    obtain ⟨hscanned, hknown, -⟩ := owned_of_forward hf.forward
    exact hknown store holder.1 ((h.olderStore_iff hf.candidate.1
      (scanned_valid hscanned) holder.1).mpr holder)
  presented load hp store holder := presented_of_programOrder h halign hp holder
  uncacheable load hp hdevice := uncacheable_of_programOrder h hp hdevice
  slotFree perm s' hr :=
    ⟨fun load _ => ⟨(hr.load_eq h load).1, (hr.load_eq h load).2,
      fun _ hb => hr.loadForwardWord_eq h load hb⟩, hr.requestScan_eq h i, hr.localScan_eq h i⟩

end StoreToLoad

/-! ## Aligned accesses -/

/-- The virtual address that a translation response of this cycle is for. -/
def translatedVaddr (s : LsqState p) (i : LsqInput p) : BitVec 64 :=
  if s.xlateRespMatchesAllocation i then s.xlateReqVaddrO i
  else (s.slots i.xlateRespTagI).vaddr

/-- What the containing LSU guarantees: loads without an exception are aligned,
and a translation keeps the offset within the page. -/
structure AlignedAccesses (s : LsqState p) (i : LsqInput p) : Prop where
  load : i.loadAllocI.valid = true → i.loadAllocI.immediate = false →
    Aligned i.loadAllocI.vaddr i.loadAllocI.size
  offset : s.xlateRespFire i = true →
    byteOffset i.xlateRespPaddrI = byteOffset (s.translatedVaddr i)

/-- The loads of every slot are aligned, before and after translation. -/
def OffsetsKept (s : LsqState p) : Prop :=
  ∀ k, (s.slots k).store = false → (s.slots k).immediate = false →
    Aligned (s.slots k).vaddr (s.slots k).size ∧
      ((s.slots k).xlateDone = true → byteOffset (s.slots k).paddr = byteOffset (s.slots k).vaddr)

theorem OffsetsKept.step {i : LsqInput p} (h : OffsetsKept s)
    (henv : AlignedAccesses s i) : OffsetsKept (s.step i) := by
  intro k
  change ((s.step i).slots k).op.store = false → ((s.step i).slots k).op.immediate = false →
    Aligned ((s.step i).slots k).op.vaddr ((s.step i).slots k).op.size ∧
      (((s.step i).slots k).xlate.done → byteOffset ((s.step i).slots k).xlate.paddr =
          byteOffset ((s.step i).slots k).op.vaddr)
  rw [step_op, step_xlate]
  intro hstr himm
  have hfire : s.xlateWrites i k → i.flushI = false ∧ s.xlateRespFire i ∧ i.xlateRespTagI = k := by
    intro hwrs
    simp only [xlateWrites, and_eq_true, not_eq_true', beq_iff_eq] at hwrs
    exact ⟨hwrs.1.1.1, hwrs.1.1.2, hwrs.1.2⟩
  cases halloc : s.allocInto i k with
  | none =>
    have hslot : s.afterAlloc i k = s.slots k := by
      rw [afterAlloc, halloc]
    rw [hslot] at hstr himm ⊢
    refine ⟨(h k hstr himm).1, fun hdone => ?_⟩
    split at hdone
    · rename_i hwrs
      obtain ⟨hfl, hrsp, rfl⟩ := hfire hwrs
      have hmatches : s.xlateRespMatchesAllocation i = false := by
        by_contra hcon
        obtain ⟨a, store, hsome, -⟩ := matchesAllocation_spec hfl (by simpa using hcon)
        rw [halloc] at hsome
        cases hsome
      have hoffset := henv.offset hrsp
      rw [translatedVaddr, hmatches, if_low] at hoffset
      rw [if_pos hwrs]
      exact hoffset
    · rename_i hwrs
      rw [if_neg hwrs]
      exact (h k hstr himm).2 hdone
  | some entry =>
    obtain ⟨a, store⟩ := entry
    have hslot : s.afterAlloc i k = .allocated a store i.translationBypassI := by
      rw [afterAlloc, halloc]
    obtain ⟨hfl, -, -, -, hport⟩ := allocInto_some halloc
    rw [hslot] at hstr himm ⊢
    change store = false at hstr
    change a.immediate = false at himm
    rcases hport with ⟨hcon, -⟩ | ⟨-, rfl, hload, -⟩
    · rw [hcon] at hstr
      cases hstr
    have hval : i.loadAllocI.valid := by
      rw [loadAllocFire, and_eq_true] at hload
      exact hload.1
    refine ⟨henv.load hval himm, fun hdone => ?_⟩
    split at hdone
    · rename_i hwrs
      obtain ⟨-, hrsp, htag⟩ := hfire hwrs
      rw [← htag] at halloc
      have hmatches := matchesAllocation_of_allocInto halloc hrsp
      obtain ⟨a, store', hsome, hvaddr⟩ := matchesAllocation_spec hfl hmatches
      rw [halloc] at hsome
      cases hsome
      have hoffset := henv.offset hrsp
      rw [translatedVaddr, if_pos hmatches, hvaddr] at hoffset
      rw [if_pos hwrs]
      exact hoffset
    · change (i.loadAllocI.immediate || (store && i.loadAllocI.atomic)) at hdone
      rw [himm, hstr] at hdone
      cases hdone

theorem aligned_of_byteOffset {a b : BitVec 64} {size : BitVec 3}
    (hb : Aligned b size) (h : byteOffset a = byteOffset b) : Aligned a size := by
  rw [Aligned, h]
  exact hb

theorem OffsetsKept.loadsAligned (h : OffsetsKept s) : LoadsAligned s := by
  intro k _ hscanned himm
  simp only [scanned, and_eq_true, not_eq_true'] at hscanned
  obtain ⟨⟨⟨-, hload⟩, hdone⟩, -⟩ := hscanned
  obtain ⟨halign, hoffset⟩ := h k hload himm
  exact aligned_of_byteOffset halign (hoffset hdone)

section

variable {past : Sync.Past (LsqState p) (LsqInput p)}
  (hrun : Sync.Run (lsq p) (Sync.cycleEnv AlignedAccesses) past s)

include hrun

theorem offsetsKept_of_run : OffsetsKept s := by
  apply Sync.Run.stateInvariant (P := OffsetsKept) ?_ ?_ hrun
  · intro s hinit k _ _
    rw [show s = reset from hinit]
    exact ⟨rfl, fun hdone => by cases hdone⟩
  · intro _ s i henv h
    exact h.step henv

end

/-! ## A forwarded load -/

instance (addr : BitVec 64) (size : BitVec 3) : Decidable (Aligned addr size) :=
  inferInstanceAs (Decidable (_ = _))

instance (s : LsqState p) (i : LsqInput p) : Decidable (AlignedAccesses s i) :=
  decidable_of_iff
    ((i.loadAllocI.valid = true → i.loadAllocI.immediate = false →
        Aligned i.loadAllocI.vaddr i.loadAllocI.size) ∧ (s.xlateRespFire i = true →
        byteOffset i.xlateRespPaddrI = byteOffset (s.translatedVaddr i)))
    ⟨fun h => ⟨h.1, h.2⟩, fun h => ⟨h.load, h.offset⟩⟩

/-- Two stores to a doubleword and a load of it, each translated at once. -/
def forwardInputs : List (LsqInput smallLsq) :=
  [((LsqInput.quiet _).withStore 1022 0x1000 0x11).translating 4 0x2000,
    ((LsqInput.quiet _).withStore 1023 0x1000 0x22).translating 5 0x2000,
    ((LsqInput.quiet _).withLoad 0 0x1000).translating 0 0x2000]

def forwardRun : Sync.Past (LsqState smallLsq) (LsqInput smallLsq) × LsqState smallLsq :=
  Sync.exec (lsq smallLsq) [] .reset forwardInputs

/-- The identifiers of `forwardInputs` wrap. -/
def forwardAge (k : Nat) : Nat :=
  if k = 4 then 1022 else if k = 5 then 1023 else 1024

end LsqState

end OpenRV64
