/-
What a misaligned access does, byte by byte: its components are naturally aligned and lie
in one page, a load assembles the bytes of memory and a store writes each of its bytes
once, and a fault is that of the component that meets it.
-/
import OpenRV64.Misaligned
import Mathlib.Tactic.IntervalCases

namespace OpenRV64

open ByteLanes
open BitVec (ofNat extractLsb'_toNat toNat_add eq_of_toNat_eq toNat_ofNat)

/-! ## Components -/

namespace MisalignedState

variable {p : MisalignedParams} {s : MisalignedState p}

/-- The component that the engine works on. -/
structure ComponentOk (s : MisalignedState p) : Prop where
  size : s.componentSize.toNat ≤ 2
  bytes : s.componentBytes.toNat = 2 ^ s.componentSize.toNat
  aligned : s.componentBytes.toNat ∣ s.currentVaddr.toNat
  fits : s.byteIndexQ.toNat + s.componentBytes.toNat ≤ s.lastByteQ.toNat + 1
  mask : Masks s.componentDataMask s.componentBytes.toNat
  strobe : s.componentStrobe = BitVec.ofNat 8 (2 ^ s.componentBytes.toNat - 1)

theorem remainingBytes_toNat (hle : s.byteIndexQ.toNat ≤ s.lastByteQ.toNat) :
    s.remainingBytes.toNat = s.lastByteQ.toNat + 1 - s.byteIndexQ.toNat := by
  have hlast := s.lastByteQ.isLt
  have hidx := s.byteIndexQ.isLt
  have hone : (1 : BitVec 4).toNat = 1 := rfl
  simp only [remainingBytes, BitVec.toNat_sub, toNat_add, BitVec.toNat_setWidth, hone]
  omega

theorem extractLsb'_low_eq_zero {v : BitVec 64} {n : ℕ} :
    v.extractLsb' 0 n = 0 ↔ 2 ^ n ∣ v.toNat := by
  rw [← BitVec.toNat_inj, extractLsb'_toNat, Nat.shiftRight_zero, Nat.dvd_iff_mod_eq_zero]
  rfl

theorem masks_four : Masks (0x00000000ffffffff : BitVec 64) 4 := by
  intro k hk
  have hlt : k < 8 := by omega
  interval_cases k <;> rfl

theorem masks_two : Masks (0x000000000000ffff : BitVec 64) 2 := by
  intro k hk
  have hlt : k < 8 := by omega
  interval_cases k <;> rfl

theorem masks_one : Masks (0x00000000000000ff : BitVec 64) 1 := by
  intro k hk
  have hlt : k < 8 := by omega
  interval_cases k <;> rfl

theorem componentOk (hle : s.byteIndexQ.toNat ≤ s.lastByteQ.toNat) : s.ComponentOk := by
  have hremaining := remainingBytes_toNat hle
  by_cases hfour : 4 ≤ s.remainingBytes ∧ s.currentVaddr.extractLsb' 0 2 = 0
  · have hsize : s.componentSize = 2 := if_pos hfour
    have hbytes : s.componentBytes = 4 := if_pos hsize
    have hroom : 4 ≤ s.remainingBytes.toNat := hfour.1
    refine ⟨by rw [hsize]; decide, by rw [hbytes, hsize]; rfl, ?_, ?_, ?_, ?_⟩
    · rw [hbytes]
      exact extractLsb'_low_eq_zero.mp hfour.2
    · rw [hbytes]
      change _ + 4 ≤ _
      omega
    · rw [componentDataMask, if_pos hsize, hbytes]
      exact masks_four
    · rw [componentStrobe, if_pos hsize, hbytes]
      rfl
  by_cases htwo : 2 ≤ s.remainingBytes ∧ s.currentVaddr.extractLsb' 0 1 = 0
  · have hsize : s.componentSize = 1 := (if_neg hfour).trans (if_pos htwo)
    have hne : s.componentSize ≠ 2 := by rw [hsize]; decide
    have hbytes : s.componentBytes = 2 := (if_neg hne).trans (if_pos hsize)
    have hroom : 2 ≤ s.remainingBytes.toNat := htwo.1
    refine ⟨by rw [hsize]; decide, by rw [hbytes, hsize]; rfl, ?_, ?_, ?_, ?_⟩
    · rw [hbytes]
      exact extractLsb'_low_eq_zero.mp htwo.2
    · rw [hbytes]
      change _ + 2 ≤ _
      omega
    · rw [componentDataMask, if_neg hne, if_pos hsize, hbytes]
      exact masks_two
    · rw [componentStrobe, if_neg hne, if_pos hsize, hbytes]
      rfl
  have hsize : s.componentSize = 0 := (if_neg hfour).trans (if_neg htwo)
  have hne : s.componentSize ≠ 2 := by rw [hsize]; decide
  have hne' : s.componentSize ≠ 1 := by rw [hsize]; decide
  have hbytes : s.componentBytes = 1 := (if_neg hne).trans (if_neg hne')
  refine ⟨by rw [hsize]; decide, by rw [hbytes, hsize]; rfl, ?_, ?_, ?_, ?_⟩
  · rw [hbytes]
    exact one_dvd _
  · rw [hbytes]
    change _ + 1 ≤ _
    omega
  · rw [componentDataMask, if_neg hne, if_neg hne', hbytes]
    exact masks_one
  · rw [componentStrobe, if_neg hne, if_neg hne', hbytes]
    rfl

theorem ComponentOk.cases (h : s.ComponentOk) : s.componentBytes.toNat = 1 ∨
    s.componentBytes.toNat = 2 ∨ s.componentBytes.toNat = 4 := by
  have hsize := h.size
  rw [h.bytes]
  interval_cases s.componentSize.toNat <;> decide

theorem ComponentOk.dvd_eight (h : s.ComponentOk) : s.componentBytes.toNat ∣ 8 := by
  rcases h.cases with hn | hn | hn <;> rw [hn] <;> decide

theorem ComponentOk.pos (h : s.ComponentOk) : 0 < s.componentBytes.toNat := by
  rcases h.cases with hn | hn | hn <;> omega

theorem nextByteIndex_toNat (h : s.ComponentOk) :
    s.nextByteIndex.toNat = s.byteIndexQ.toNat + s.componentBytes.toNat := by
  have hfits := h.fits
  have hlast := s.lastByteQ.isLt
  simp only [nextByteIndex, toNat_add, BitVec.toNat_setWidth]
  omega

end MisalignedState

/-! ## Translation -/

namespace MisalignedOp

variable (frame : BitVec 52 → BitVec 52) (op : MisalignedOp)

/-- The physical address of a byte: translation replaces the page and keeps the place in
the page, and the bypass keeps the address. -/
def phys (v : BitVec 64) : BitVec 64 :=
  if op.bypass then v else frame (v.extractLsb' 12 52) ++ v.extractLsb' 0 12

/-- The address of byte `k` of the access. -/
def byteAddr (k : ℕ) : BitVec 64 := op.addr + BitVec.ofNat 64 k

variable {frame op}

theorem append_toNat (hi : BitVec 52) (lo : BitVec 12) :
    (hi ++ lo).toNat = hi.toNat * 4096 + lo.toNat := by
  rw [BitVec.toNat_append, ← Nat.shiftLeft_add_eq_or_of_lt lo.isLt, Nat.shiftLeft_eq]

/-- An aligned component lies in one page, so its bytes stay together. -/
theorem phys_add {v : BitVec 64} {n k : ℕ} (hn : n ∣ 4096) (hpos : 0 < n)
    (halign : n ∣ v.toNat) (hk : k < n) :
    op.phys frame (v + ofNat 64 k) = op.phys frame v + ofNat 64 k := by
  rw [phys, phys]
  split
  · rfl
  have hsum := add_toNat_of_aligned (hn.trans (by decide)) halign hk
  obtain ⟨hdiv, hmod⟩ := add_div_of_aligned hpos hn halign hk
  have hpage : (v + ofNat 64 k).extractLsb' 12 52 = v.extractLsb' 12 52 := by
    apply eq_of_toNat_eq
    rw [extractLsb'_toNat, extractLsb'_toNat, Nat.shiftRight_eq_div_pow,
      Nat.shiftRight_eq_div_pow, hsum, hdiv]
  have hlow : ((v + ofNat 64 k).extractLsb' 0 12).toNat = (v.extractLsb' 0 12).toNat + k := by
    rw [extractLsb'_toNat, extractLsb'_toNat, Nat.shiftRight_zero, Nat.shiftRight_zero, hsum, hmod]
  have hlt := ((v + ofNat 64 k).extractLsb' 0 12).isLt
  have hframe := (frame (v.extractLsb' 12 52)).isLt
  apply eq_of_toNat_eq
  rw [hpage, append_toNat, toNat_add, append_toNat, toNat_ofNat, hlow]
  rw [hlow] at hlt
  omega

theorem phys_mod (v : BitVec 64) : (op.phys frame v).toNat % 8 = v.toNat % 8 := by
  rw [phys]
  split
  · rfl
  · rw [append_toNat, extractLsb'_toNat, Nat.shiftRight_zero]
    omega

end MisalignedOp

/-! ## Lanes of a request -/

theorem dwordBase_add (a : BitVec 64) {k : ℕ} :
    dwordBase a + ofNat 64 (a.toNat % 8 + k) = a + ofNat 64 k := by
  have hlt := a.isLt
  apply eq_of_toNat_eq
  simp only [dwordBase, toNat_add, BitVec.toNat_shiftLeft, BitVec.toNat_ushiftRight,
    toNat_ofNat, Nat.shiftLeft_eq, Nat.shiftRight_eq_div_pow]
  omega

/-- The lanes that a shifted strobe of `n` bytes selects. -/
theorem strobed_lanes {n pl : ℕ} (hn : n = 1 ∨ n = 2 ∨ n = 4) (hfit : pl + n ≤ 8) :
    ((List.range 8).filter fun k => (ofNat 8 (2 ^ n - 1) <<< pl).getLsbD k) =
      (List.range n).map (pl + ·) := by
  rcases hn with rfl | rfl | rfl
  · have hlt : pl ≤ 7 := by omega
    interval_cases pl <;> rfl
  · have hlt : pl ≤ 6 := by omega
    interval_cases pl <;> rfl
  · have hlt : pl ≤ 4 := by omega
    interval_cases pl <;> rfl

namespace MisalignedState

variable {p : MisalignedParams} {s : MisalignedState p}

/-- The place of the component in its doubleword. -/
def lanePlace (s : MisalignedState p) : ℕ := s.paddrQ.toNat % 8

theorem extract_place : (s.paddrQ.extractLsb' 0 3).toNat = s.lanePlace := by
  rw [extractLsb'_toNat, Nat.shiftRight_zero]
  rfl

theorem place_fits (h : s.ComponentOk) (hplc : s.paddrQ.toNat % 8 = s.currentVaddr.toNat % 8) :
    s.lanePlace + s.componentBytes.toNat ≤ 8 := by
  have hdvd : s.componentBytes.toNat ∣ s.currentVaddr.toNat % 8 :=
    (Nat.dvd_mod_iff h.dvd_eight).mpr h.aligned
  rw [lanePlace, hplc]
  rcases h.cases with hn | hn | hn <;> rw [hn] at hdvd ⊢ <;> omega

/-- An accepted store request writes the bytes of its component. -/
theorem bytesWritten_component (h : s.ComponentOk) (hwr : s.writeQ)
    (hplc : s.paddrQ.toNat % 8 = s.currentVaddr.toNat % 8) :
    bytesWritten s.memAddrO s.memWdataO s.memWstrbO =
      (List.range s.componentBytes.toNat).map fun k =>
        (s.paddrQ + ofNat 64 k, lane s.dataQ (s.byteIndexQ.toNat + k)) := by
  have hfit := place_fits h hplc
  have hfits := h.fits
  have hlast := s.lastByteQ.isLt
  rw [bytesWritten, memWstrbO, if_pos hwr, h.strobe, extract_place,
    strobed_lanes h.cases hfit, List.map_map]
  apply List.map_congr_left
  intro k hk
  have hlt : k < s.componentBytes.toNat := List.mem_range.mp hk
  have haddr := dwordBase_add s.paddrQ (k := k)
  have hdata : lane s.memWdataO (s.lanePlace + k) = lane s.dataQ (s.byteIndexQ.toNat + k) := by
    rw [memWdataO, currentStoreComponent, paddrByteShift, resultByteShift, extract_place,
      lane_shiftLeft _ _ (by omega), if_neg (by omega), Nat.add_sub_cancel_left,
      lane_and_mask h.mask _ (by omega), if_pos hlt, lane_ushiftRight]
  exact Prod.ext haddr hdata

/-- The bytes of the result after a component of a load. -/
theorem assembled_lane (h : s.ComponentOk) {i : MisalignedInput p}
    (hwr : s.writeQ = false) {k : ℕ} (hk : k < 8) :
    lane (s.assembled i) k = lane s.dataQ k |||
      if s.byteIndexQ.toNat ≤ k ∧ k < s.byteIndexQ.toNat + s.componentBytes.toNat then
        lane i.memRdataI (s.lanePlace + (k - s.byteIndexQ.toNat)) else 0 := by
  rw [assembled, hwr, if_low, responseLoadComponent, paddrByteShift,
    resultByteShift, extract_place, lane_insert h.mask _ _ _ _ (by omega)]

end MisalignedState

/-! ## What the surroundings promise and what the access does -/

namespace MisalignedBooks

variable {p : MisalignedParams} (frame : BitVec 52 → BitVec 52) (mem : BitVec 64 → BitVec 8)

/-- A response answers a request in flight: a translation with the frame of its page, a
load with the doubleword of memory that its address lies in.  A redirect suppresses the
answer of a load, and an access is a half, a word or a double. -/
structure Ports (t : MisalignedBooks p) (i : MisalignedInput p) : Prop where
  size : t.engine.startFire i = true → i.startSizeI = 1 ∨ i.startSizeI = 2 ∨ i.startSizeI = 3
  xlate : t.xlateAnswered i = true → ∃ v, t.xlateOpen i = some v ∧
    (i.xlateRespAccessFaultI = false → i.xlateRespPageFaultI = false →
      i.xlateRespPaddrI = t.op.phys frame v)
  mem : t.memAnswered i = true → ∃ a, t.memOpen i = some a ∧
    (t.op.write = false → i.memErrorI = false → i.memPageFaultI = false →
      ∀ k < 8, lane i.memRdataI k = mem (dwordBase a + BitVec.ofNat 64 k))
  done : t.storeReleased i = true → (t.memOpen i).isSome = true

/-- The first `m` bytes of a store, each at its address. -/
def storeBytes (op : MisalignedOp) (m : ℕ) : List (BitVec 64 × BitVec 8) :=
  (List.range m).map fun k => (op.phys frame (op.byteAddr k), lane op.wdata k)

/-- The result of an access: all bytes of a load, all bytes of a store, or the fault of
the first component that met one. -/
structure ResultExact (t : MisalignedBooks p) : Prop where
  load : t.fault = none → t.op.write = false → ∀ k < 8, lane t.engine.resultRdataO k =
    if k < t.op.bytes then mem (t.op.phys frame (t.op.byteAddr k)) else 0
  store : t.fault = none → t.op.write = true → t.written = storeBytes frame t.op t.op.bytes
  noFault : t.fault = none → t.engine.resultAccessFaultO = false ∧ t.engine.resultPageFaultO = false
  fault : ∀ f, t.fault = some f → t.engine.resultAccessFaultO = f.access ∧
    t.engine.resultPageFaultO = f.page ∧ t.engine.resultFaultAddrO = f.vaddr

/-- A component that is asked for is naturally aligned, lies in one page, and is a part
of the access; its physical address is that of its first byte. -/
structure ComponentNatural (t : MisalignedBooks p) : Prop where
  size : t.engine.componentSize.toNat ≤ 2
  aligned : 2 ^ t.engine.componentSize.toNat ∣ t.engine.currentVaddr.toNat
  page : ∀ k < 2 ^ t.engine.componentSize.toNat,
    (t.engine.currentVaddr + BitVec.ofNat 64 k).toNat / 4096 = t.engine.currentVaddr.toNat / 4096
  part : ∃ k, t.engine.currentVaddr = t.op.byteAddr k ∧
    k + 2 ^ t.engine.componentSize.toNat ≤ t.op.bytes
  address : t.engine.memValidO = true → t.engine.memAddrO = t.op.phys frame t.engine.currentVaddr

/-- One state of a run. -/
structure AccessExact (t : MisalignedBooks p) : Prop where
  result : t.engine.resultValidO = true → ResultExact frame mem t
  natural : t.engine.xlateValidO = true ∨ t.engine.memValidO = true → ComponentNatural frame t
  stops : t.fault ≠ none → t.engine.xlateValidO = false ∧ t.engine.memValidO = false
  written : t.op.write = true → t.engine.activeO = true →
    ∃ m ≤ t.op.bytes, t.written = storeBytes frame t.op m
  loads : t.op.write = false → t.engine.activeO = true → t.written = []

end MisalignedBooks

end OpenRV64
