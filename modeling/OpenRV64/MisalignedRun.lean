/-
Every run of the misaligned engine: what the registers and the books say of the access in
each state, and how one cycle keeps it.
-/
import OpenRV64.MisalignedExact

namespace OpenRV64

open ByteLanes MisalignedState
open BitVec (toNat_setWidth toNat_ofNat lt_def ofNat)
open Bool (false_eq_true or_eq_false_iff)
open Option (some)
open MisalignedOp (byteAddr phys_add phys_mod)

namespace MisalignedBooks

variable {p : MisalignedParams} {frame : BitVec 52 → BitVec 52} {mem : BitVec 64 → BitVec 8}

/-! ## The access in hand -/

/-- The registers hold the operation that the engine was started with. -/
structure Working (t : MisalignedBooks p) : Prop where
  write : t.engine.writeQ = t.op.write
  bypass : t.engine.translationBypassQ = t.op.bypass
  addr : t.engine.baseAddrQ = t.op.addr
  bytes : t.op.bytes = t.engine.lastByteQ.toNat + 1
  index : t.engine.byteIndexQ.toNat ≤ t.engine.lastByteQ.toNat

variable (frame mem)

/-- A load has assembled its first `m` bytes, and a store still holds its data. -/
structure Covered (t : MisalignedBooks p) (m : ℕ) : Prop where
  store : t.op.write = true → t.engine.dataQ = t.op.wdata
  load : t.op.write = false → ∀ k < 8, lane t.engine.dataQ k =
    if k < m then mem (t.op.phys frame (t.op.byteAddr k)) else 0

/-- A store has written its first `m` bytes, and a load nothing. -/
structure Stored (t : MisalignedBooks p) (m : ℕ) : Prop where
  store : t.op.write = true → t.written = storeBytes frame t.op m
  load : t.op.write = false → t.written = []

/-- A component of an access without a fault so far. -/
structure Clean (t : MisalignedBooks p) : Prop where
  working : t.Working
  noFault : t.fault = none
  accessFault : t.engine.accessFaultQ = false
  pageFault : t.engine.pageFaultQ = false
  covered : t.Covered frame mem t.engine.byteIndexQ.toNat

structure Resting (t : MisalignedBooks p) : Prop where
  state : t.engine.stateQ = .idle
  xlating : t.xlating = none
  asked : t.asked = none

structure Translating (t : MisalignedBooks p) : Prop where
  state : t.engine.stateQ = .xlate
  clean : t.Clean frame mem
  bypass : t.op.bypass = false
  stored : t.Stored frame t.engine.byteIndexQ.toNat
  xlating : t.xlating = if t.engine.xlateSentQ then some t.engine.currentVaddr else none
  unsent : t.engine.accessSentQ = false
  asked : t.asked = none

structure Accessing (t : MisalignedBooks p) : Prop where
  state : t.engine.stateQ = .access
  clean : t.Clean frame mem
  paddr : t.engine.paddrQ = t.op.phys frame t.engine.currentVaddr
  xlating : t.xlating = none
  unsent : t.engine.accessSentQ = false → t.asked = none ∧ t.Stored frame t.engine.byteIndexQ.toNat
  sent : t.engine.accessSentQ = true → t.asked = some t.engine.paddrQ ∧
    t.Stored frame (t.engine.byteIndexQ.toNat + t.engine.componentBytes.toNat) ∧
      t.engine.currentPaddrCacheable = true

structure Finished (t : MisalignedBooks p) : Prop where
  state : t.engine.stateQ = .result
  working : t.Working
  xlating : t.xlating = none
  asked : t.asked = none
  complete : t.fault = none → t.engine.accessFaultQ = false ∧
    t.engine.pageFaultQ = false ∧ t.Covered frame mem t.op.bytes ∧ t.Stored frame t.op.bytes
  faulty : ∀ f, t.fault = some f → t.engine.accessFaultQ = f.access ∧
    t.engine.pageFaultQ = f.page ∧ t.engine.currentVaddr = f.vaddr ∧
      ∃ m ≤ t.op.bytes, t.Stored frame m

inductive Inv (t : MisalignedBooks p) : Prop
  | resting : t.Resting → Inv t
  | translating : t.Translating frame mem → Inv t
  | accessing : t.Accessing frame mem → Inv t
  | finished : t.Finished frame mem → Inv t

variable {frame mem} {t : MisalignedBooks p} {i : MisalignedInput p}

/-! ## The component in hand -/

theorem Working.componentOk (h : t.Working) : t.engine.ComponentOk :=
  MisalignedState.componentOk h.index

theorem Working.currentVaddr (h : t.Working) :
    t.engine.currentVaddr = t.op.byteAddr t.engine.byteIndexQ.toNat := by
  have hidx : t.engine.byteIndexQ.setWidth 64 = ofNat 64 t.engine.byteIndexQ.toNat := by
    apply BitVec.eq_of_toNat_eq
    rw [toNat_setWidth, toNat_ofNat]
  rw [MisalignedState.currentVaddr, byteAddr, h.addr, hidx]

theorem byteAddr_add (op : MisalignedOp) (m k : ℕ) :
    op.byteAddr m + ofNat 64 k = op.byteAddr (m + k) := by
  rw [byteAddr, byteAddr, BitVec.ofNat_add, BitVec.add_assoc]

/-- The bytes of a component stay together in physical memory. -/
theorem Working.phys_byte (h : t.Working) {k : ℕ} (hk : k < t.engine.componentBytes.toNat) :
    t.op.phys frame (t.op.byteAddr (t.engine.byteIndexQ.toNat + k)) =
      t.op.phys frame t.engine.currentVaddr + ofNat 64 k := by
  have hok := h.componentOk
  rw [← byteAddr_add, ← h.currentVaddr]
  exact phys_add (hok.dvd_eight.trans (by decide)) hok.pos hok.aligned hk

theorem Accessing.place (h : t.Accessing frame mem) :
    t.engine.paddrQ.toNat % 8 = t.engine.currentVaddr.toNat % 8 := by
  rw [h.paddr]
  exact phys_mod _

theorem storeBytes_add (op : MisalignedOp) (m n : ℕ) :
    storeBytes frame op (m + n) = storeBytes frame op m ++ (List.range n).map fun k =>
        (op.phys frame (op.byteAddr (m + k)), lane op.wdata (m + k)) := by
  rw [storeBytes, storeBytes, List.range_add, List.map_append, List.map_map]
  rfl

/-- An accepted store request adds the bytes of its component. -/
theorem Accessing.written_next (h : t.Accessing frame mem)
    (hwr : t.op.write) (hwritten : t.written = storeBytes frame t.op t.engine.byteIndexQ.toNat) :
    t.written ++ bytesWritten t.engine.memAddrO t.engine.memWdataO t.engine.memWstrbO =
      storeBytes frame t.op (t.engine.byteIndexQ.toNat + t.engine.componentBytes.toNat) := by
  have hwork := h.clean.working
  have hok := hwork.componentOk
  rw [hwritten, storeBytes_add, bytesWritten_component hok (hwork.write.trans hwr) h.place]
  congr 1
  apply List.map_congr_left
  intro k hk
  rw [hwork.phys_byte (List.mem_range.mp hk), h.paddr, h.clean.covered.store hwr]

/-- The answer of a load adds the bytes of its component. -/
theorem Accessing.assembled_next (h : t.Accessing frame mem) (hload : t.op.write = false)
    (hdata : ∀ k < 8, lane i.memRdataI k =
      mem (dwordBase t.engine.paddrQ + ofNat 64 k)) {k : ℕ} (hk : k < 8) :
    lane (t.engine.assembled i) k =
      if k < t.engine.byteIndexQ.toNat + t.engine.componentBytes.toNat then
        mem (t.op.phys frame (t.op.byteAddr k)) else 0 := by
  have hwork := h.clean.working
  have hok := hwork.componentOk
  have hfit := place_fits hok h.place
  rw [assembled_lane hok (hwork.write.trans hload) hk, h.clean.covered.load hload k hk]
  by_cases hold : k < t.engine.byteIndexQ.toNat
  · rw [if_pos hold, if_neg (by omega), if_pos (by omega), or_zero_lane]
  rw [if_neg hold]
  by_cases hnew : k < t.engine.byteIndexQ.toNat + t.engine.componentBytes.toNat
  · obtain ⟨j, rfl⟩ := Nat.exists_eq_add_of_le (Nat.le_of_not_lt hold)
    have hj : j < t.engine.componentBytes.toNat := by omega
    rw [if_pos ⟨by omega, hnew⟩, if_pos hnew, zero_or_lane, Nat.add_sub_cancel_left,
      hdata _ (by omega), hwork.phys_byte hj, ← h.paddr]
    exact congrArg mem (dwordBase_add t.engine.paddrQ)
  · rw [if_neg (by omega), if_neg hnew, zero_or_lane]

/-! ## Which channels a state opens -/

theorem startFire_of_busy (h : t.engine.stateQ ≠ .idle) : t.engine.startFire i = false := by
  simp [startFire, startReadyO, h]

theorem xlateFire_of_other (h : t.engine.stateQ ≠ .xlate) :
    t.engine.xlateFire i = false ∧ t.xlateAnswered i = false := by
  simp [xlateFire, xlateValidO, xlateAnswered, xlateRespReadyO, h]

theorem memFire_of_other (h : t.engine.stateQ ≠ .access) : t.engine.memFire i = false ∧
    t.memAnswered i = false ∧ t.storeReleased i = false := by
  simp [memFire, memValidO, memAnswered, memRespReadyO, storeReleased, memStoreDoneReadyO, h]

/-! ## One cycle -/

theorem accessLastByte_toNat {size : BitVec 3} (h : size = 1 ∨ size = 2 ∨ size = 3) :
    2 ^ size.toNat = (accessLastByte size).toNat + 1 := by
  rcases h with rfl | rfl | rfl <;> rfl

theorem Resting.step (h : t.Resting) (hport : Ports frame mem t i) :
    Inv frame mem ((misalignedBooks p).step t i) := by
  have hxl := xlateFire_of_other (t := t) (i := i) (by simp [h.state])
  have hmem := memFire_of_other (t := t) (i := i) (by simp [h.state])
  have hxlating : (if t.xlateAnswered i then none else t.xlateOpen i) = none := by
    rw [hxl.2, if_low, xlateOpen, hxl.1, if_low, h.xlating]
  have hasked : t.askedNext i = none := by
    simp [askedNext, hmem, h.asked]
  cases hstart : t.engine.startFire i with
  | false =>
    have hengine : t.engine.step i = t.engine := by
      simp only [MisalignedState.step, h.state, hstart, if_low]
    exact .resting ⟨(congrArg _ hengine).trans h.state, hxlating, hasked⟩
  | true =>
    have hbytes := accessLastByte_toNat (hport.size hstart)
    have hnxt : (misalignedBooks p).step t i =
        ⟨start i, ⟨i.startWriteI, i.startAddrI, i.startSizeI,
          i.startWdataI, i.translationBypassI⟩, none, none, [], none⟩ := by
      simp only [misalignedBooks, hxlating, hasked, MisalignedState.step, h.state, hstart,
        if_true, opNext, writtenNext, faultNext]
    rw [hnxt]
    have hwork : Working (p := p) ⟨start i, ⟨i.startWriteI,
        i.startAddrI, i.startSizeI, i.startWdataI, i.translationBypassI⟩, none, none, [],
          none⟩ := ⟨rfl, rfl, rfl, hbytes, Nat.zero_le _⟩
    have hclean : Clean (p := p) frame mem ⟨start i, ⟨i.startWriteI,
        i.startAddrI, i.startSizeI, i.startWdataI, i.translationBypassI⟩, none, none, [],
          none⟩ := by
      refine ⟨hwork, rfl, rfl, rfl, ?_, ?_⟩
      · intro hwr
        exact if_pos hwr
      · intro hload k _
        have hz : (start i).dataQ = 0 := if_neg (Bool.eq_false_iff.mp hload)
        rw [hz]
        exact (lane_zero k).trans (if_neg (Nat.not_lt_zero k)).symm
    cases hbyp : i.translationBypassI with
    | true =>
      have hst : (start i).stateQ = .access := if_pos hbyp
      rw [hbyp] at hclean hwork
      refine .accessing ⟨hst, hclean, ?_, rfl, fun _ => ⟨rfl, fun _ => rfl, fun _ => rfl⟩, nofun⟩
      have hpaddr : (start i).paddrQ = i.startAddrI := if_pos hbyp
      rw [hpaddr, hwork.currentVaddr]
      exact (BitVec.add_zero _).symm
    | false =>
      have hst : (start i).stateQ = .xlate := if_neg (Bool.eq_false_iff.mp hbyp)
      rw [hbyp] at hclean
      exact .translating ⟨hst, hclean, rfl, ⟨fun _ => rfl, fun _ => rfl⟩, rfl, rfl, rfl⟩

theorem Finished.step (h : t.Finished frame mem) :
    Inv frame mem ((misalignedBooks p).step t i) := by
  have hstart := startFire_of_busy (t := t) (i := i) (by simp [h.state])
  have hxl := xlateFire_of_other (t := t) (i := i) (by simp [h.state])
  have hmem := memFire_of_other (t := t) (i := i) (by simp [h.state])
  have hxlating : (if t.xlateAnswered i then none else t.xlateOpen i) = none := by
    rw [hxl.2, if_low, xlateOpen, hxl.1, if_low, h.xlating]
  have hasked : t.askedNext i = none := by
    simp [askedNext, hmem, h.asked]
  cases hfire : t.engine.resultFire i with
  | true =>
    have hengine : t.engine.step i = { t.engine with stateQ := .idle } := by
      simp only [MisalignedState.step, h.state, hfire, if_true]
    exact .resting ⟨congrArg stateQ hengine, hxlating, hasked⟩
  | false =>
    have hflt : t.faultNext i = t.fault := by
      have hnow : t.faultNow i = none := by
        simp [faultNow, hxl, hmem, h.state]
      rw [faultNext, hstart, if_low, hnow]
      cases t.fault <;> rfl
    have hnxt : (misalignedBooks p).step t i = { t with xlating := none, asked := none } := by
      simp only [misalignedBooks, hxlating, hasked, hflt, opNext, writtenNext, hstart,
        hmem, MisalignedState.step, h.state, hfire, false_eq_true, Bool.false_and, if_false]
    rw [hnxt]
    exact .finished ⟨h.state, ⟨h.working.write, h.working.bypass, h.working.addr,
      h.working.bytes, h.working.index⟩, rfl, rfl,
      fun hnone => ⟨(h.complete hnone).1, (h.complete hnone).2.1,
        ⟨(h.complete hnone).2.2.1.store, (h.complete hnone).2.2.1.load⟩,
        ⟨(h.complete hnone).2.2.2.store, (h.complete hnone).2.2.2.load⟩⟩,
      fun f hf => ⟨(h.faulty f hf).1, (h.faulty f hf).2.1, (h.faulty f hf).2.2.1, by
        obtain ⟨m, hm, hstored⟩ := (h.faulty f hf).2.2.2
        exact ⟨m, hm, hstored.store, hstored.load⟩⟩⟩

section

variable (h : t.Translating frame mem)

include h

/-- A translation response is for the request of the component in hand. -/
theorem Translating.taken (hport : Ports frame mem t i)
    (hans : t.xlateAnswered i) : t.engine.xlateRespFire i ∧
      (i.xlateRespAccessFaultI = false → i.xlateRespPageFaultI = false →
        i.xlateRespPaddrI = t.op.phys frame t.engine.currentVaddr) := by
  obtain ⟨v, hopen, hpaddr⟩ := hport.xlate hans
  have hasked : (t.engine.xlateSentQ || t.engine.xlateFire i) ∧ v = t.engine.currentVaddr := by
    rw [xlateOpen] at hopen
    cases hfire : t.engine.xlateFire i with
    | true =>
      rw [hfire, if_pos rfl] at hopen
      exact ⟨Bool.or_true _, (some.inj hopen).symm⟩
    | false =>
      rw [hfire, if_low, h.xlating] at hopen
      cases hsent : t.engine.xlateSentQ with
      | true =>
        rw [hsent, if_pos rfl] at hopen
        exact ⟨rfl, (some.inj hopen).symm⟩
      | false =>
        rw [hsent, if_low] at hopen
        cases hopen
  refine ⟨?_, hasked.2 ▸ hpaddr⟩
  rw [xlateRespFire, hasked.1, Bool.and_true]
  exact hans

/-- The response moves on to the access, or ends the instruction with its fault. -/
theorem Translating.step_answered (hport : Ports frame mem t i)
    (hans : t.xlateAnswered i) : Inv frame mem ((misalignedBooks p).step t i) := by
  have hstart := startFire_of_busy (t := t) (i := i) (by simp [h.state])
  have hmem := memFire_of_other (t := t) (i := i) (by simp [h.state])
  have hasked : t.askedNext i = none := by
    simp [askedNext, hmem, h.asked]
  have hnoFault := h.clean.noFault
  have hwork := h.clean.working
  obtain ⟨hfire, hpaddr⟩ := h.taken hport hans
  cases hbad : i.xlateRespAccessFaultI || i.xlateRespPageFaultI with
  | true =>
    have hnxt : (misalignedBooks p).step t i =
        { t with
          engine := { t.engine with
            xlateSentQ := false
            accessFaultQ := i.xlateRespAccessFaultI
            pageFaultQ := i.xlateRespPageFaultI
            stateQ := .result }
          xlating := none
          asked := none
          fault := some ⟨t.engine.xlateVaddrO, i.xlateRespAccessFaultI,
            i.xlateRespPageFaultI⟩ } := by
      simp only [misalignedBooks, hans, hasked, opNext, writtenNext, faultNext,
        faultNow, hnoFault, hstart, hmem, hbad, MisalignedState.step, h.state, hfire,
        translated, false_eq_true, Bool.false_and, Bool.and_self, if_false, if_true]
    rw [hnxt]
    refine .finished ⟨rfl, ⟨hwork.write, hwork.bypass, hwork.addr,
      hwork.bytes, hwork.index⟩, rfl, rfl, fun hnone => (by cases hnone), ?_⟩
    rintro f ⟨⟩
    refine ⟨rfl, rfl, rfl, t.engine.byteIndexQ.toNat, ?_, h.stored.store, h.stored.load⟩
    rw [hwork.bytes]
    exact hwork.index.trans (Nat.le_succ _)
  | false =>
    have hgood := or_eq_false_iff.mp hbad
    have hnxt : (misalignedBooks p).step t i =
        { t with
          engine := { t.engine with
            xlateSentQ := false
            paddrQ := i.xlateRespPaddrI
            stateQ := .access }
          xlating := none
          asked := none } := by
      simp only [misalignedBooks, hans, hasked, opNext, writtenNext, faultNext,
        faultNow, hnoFault, hstart, hmem, hbad, MisalignedState.step, h.state, hfire,
        translated, false_eq_true, Bool.false_and, Bool.and_false, if_false, if_true]
      rfl
    rw [hnxt]
    exact .accessing ⟨rfl, ⟨⟨hwork.write, hwork.bypass, hwork.addr,
      hwork.bytes, hwork.index⟩, hnoFault, h.clean.accessFault,
      h.clean.pageFault, ⟨h.clean.covered.store, h.clean.covered.load⟩⟩,
      hpaddr hgood.1 hgood.2, rfl, fun _ => ⟨rfl, h.stored.store, h.stored.load⟩,
      fun hsent => absurd h.unsent (ne_false_of_eq_true hsent)⟩

theorem Translating.step_unanswered (hans : t.xlateAnswered i = false) :
    Inv frame mem ((misalignedBooks p).step t i) := by
  have hstart := startFire_of_busy (t := t) (i := i) (by simp [h.state])
  have hmem := memFire_of_other (t := t) (i := i) (by simp [h.state])
  have hasked : t.askedNext i = none := by
    simp [askedNext, hmem, h.asked]
  have hnoFault := h.clean.noFault
  have hwork := h.clean.working
  have hfire : t.engine.xlateRespFire i = false := by
    rw [xlateRespFire]
    rw [xlateAnswered] at hans
    rw [hans, Bool.false_and]
  have hflt : t.faultNext i = none := by
    simp [faultNext, hnoFault, faultNow, hans, hmem, h.state, hstart]
  cases hask : t.engine.xlateFire i with
  | true =>
    have hnxt : (misalignedBooks p).step t i =
        { t with
          engine := { t.engine with xlateSentQ := true }
          xlating := some t.engine.currentVaddr
          asked := none
          fault := none } := by
      simp only [misalignedBooks, hans, hasked, opNext, writtenNext, hflt, hstart,
        hmem, MisalignedState.step, h.state, hfire, hask, xlateOpen,
        xlateVaddrO, false_eq_true, Bool.false_and, if_false, if_true]
    rw [hnxt]
    exact .translating ⟨h.state, ⟨⟨hwork.write, hwork.bypass, hwork.addr,
      hwork.bytes, hwork.index⟩, rfl, h.clean.accessFault, h.clean.pageFault,
      ⟨h.clean.covered.store, h.clean.covered.load⟩⟩, h.bypass,
      ⟨h.stored.store, h.stored.load⟩, rfl, h.unsent, rfl⟩
  | false =>
    have hnxt : (misalignedBooks p).step t i = { t with asked := none, fault := none } := by
      simp only [misalignedBooks, hans, hasked, opNext, writtenNext, hflt, hstart,
        hmem, MisalignedState.step, h.state, hfire, hask, xlateOpen,
        false_eq_true, Bool.false_and, if_false]
    rw [hnxt]
    exact .translating ⟨h.state, ⟨⟨hwork.write, hwork.bypass, hwork.addr,
      hwork.bytes, hwork.index⟩, rfl, h.clean.accessFault, h.clean.pageFault,
      ⟨h.clean.covered.store, h.clean.covered.load⟩⟩, h.bypass,
      ⟨h.stored.store, h.stored.load⟩, h.xlating, h.unsent, rfl⟩

theorem Translating.step (hport : Ports frame mem t i) :
    Inv frame mem ((misalignedBooks p).step t i) := by
  cases hans : t.xlateAnswered i with
  | true => exact h.step_answered hport hans
  | false => exact h.step_unanswered hans

end

/-! ## The access of a component -/

theorem memFire_facts (hfire : t.engine.memFire i) :
    t.engine.accessSentQ = false ∧ t.engine.currentPaddrCacheable := by
  simp only [memFire, memValidO, Bool.and_eq_true, Bool.not_eq_true'] at hfire
  exact ⟨hfire.1.1.2, hfire.1.2⟩

section

variable (h : t.Accessing frame mem)
include h

/-- The request in flight is that of the component in hand. -/
theorem Accessing.memOpen_some {a : BitVec 64} (hopen : t.memOpen i = some a) :
    (t.engine.accessSentQ || t.engine.memFire i) ∧ a = t.engine.paddrQ := by
  rw [memOpen] at hopen
  cases hfire : t.engine.memFire i with
  | true =>
    rw [hfire, if_pos rfl] at hopen
    exact ⟨Bool.or_true _, (some.inj hopen).symm⟩
  | false =>
    rw [hfire, if_low] at hopen
    cases hsent : t.engine.accessSentQ with
    | true =>
      rw [(h.sent hsent).1] at hopen
      exact ⟨rfl, (some.inj hopen).symm⟩
    | false =>
      rw [(h.unsent hsent).1] at hopen
      cases hopen

theorem Accessing.answered (hport : Ports frame mem t i) (hans : t.memAnswered i) :
    t.engine.memRespFire i ∧ (t.op.write = false → i.memErrorI = false → i.memPageFaultI = false →
        ∀ k < 8, lane i.memRdataI k = mem (dwordBase t.engine.paddrQ + ofNat 64 k)) := by
  obtain ⟨a, hopen, hdata⟩ := hport.mem hans
  obtain ⟨hasked, rfl⟩ := h.memOpen_some hopen
  refine ⟨?_, hdata⟩
  rw [memRespFire, hasked, Bool.and_true]
  exact hans

/-- The component is done when its request is answered or released. -/
theorem Accessing.done_eq (hport : Ports frame mem t i) :
    t.engine.componentDone i = (t.memAnswered i || t.storeReleased i) := by
  have hwr := h.clean.working.write
  have hrsp : t.engine.memRespFire i = t.memAnswered i := by
    cases hans : t.memAnswered i with
    | true => exact (h.answered hport hans).1
    | false =>
      rw [memAnswered] at hans
      rw [memRespFire, hans, Bool.false_and]
  have hstr : t.engine.storeDoneFire i = t.storeReleased i := by
    rw [storeDoneFire, hwr]
    cases hrelease : t.storeReleased i with
    | true =>
      obtain ⟨a, hopen⟩ := Option.isSome_iff_exists.mp (hport.done hrelease)
      rw [(h.memOpen_some hopen).1, Bool.and_true]
      exact hrelease
    | false =>
      rw [storeReleased] at hrelease
      rw [hrelease, Bool.false_and]
  rw [componentDone, hrsp, hstr]

theorem Accessing.sent_of_done (hport : Ports frame mem t i) (hdone : t.engine.componentDone i) :
    (t.engine.accessSentQ || t.engine.memFire i) := by
  rw [h.done_eq hport, Bool.or_eq_true] at hdone
  rcases hdone with hans | hrelease
  · obtain ⟨a, hopen, -⟩ := hport.mem hans
    exact (h.memOpen_some hopen).1
  · obtain ⟨a, hopen⟩ := Option.isSome_iff_exists.mp (hport.done hrelease)
    exact (h.memOpen_some hopen).1

/-- What a store has written once its request is accepted. -/
theorem Accessing.written_after (hsent : (t.engine.accessSentQ || t.engine.memFire i)) :
    (t.op.write → t.writtenNext i = storeBytes frame t.op
      (t.engine.byteIndexQ.toNat + t.engine.componentBytes.toNat)) ∧
      (t.op.write = false → t.writtenNext i = []) := by
  have hwr := h.clean.working.write
  have hstart := startFire_of_busy (t := t) (i := i) (by simp [h.state])
  rw [writtenNext, hstart, if_low, memWriteO, hwr]
  cases hfire : t.engine.memFire i with
  | true =>
    have hunsent := h.unsent (memFire_facts hfire).1
    constructor
    · intro hstr
      rw [hstr, Bool.and_self, if_pos rfl]
      exact h.written_next hstr (hunsent.2.store hstr)
    · intro hload
      rw [hload, Bool.and_false, if_low]
      exact hunsent.2.load hload
  | false =>
    rw [hfire, Bool.or_false] at hsent
    rw [Bool.false_and, if_low]
    exact ⟨(h.sent hsent).2.1.store, (h.sent hsent).2.1.load⟩

theorem Accessing.bytes_le :
    t.engine.byteIndexQ.toNat + t.engine.componentBytes.toNat ≤ t.op.bytes := by
  rw [h.clean.working.bytes]
  exact h.clean.working.componentOk.fits

/-- A component outside the cacheable range is not asked for. -/
theorem Accessing.step_refused (hport : Ports frame mem t i)
    (hrng : t.engine.currentPaddrCacheable = false) :
    Inv frame mem ((misalignedBooks p).step t i) := by
  have hwork := h.clean.working
  have hstart := startFire_of_busy (t := t) (i := i) (by simp [h.state])
  have hxl := xlateFire_of_other (t := t) (i := i) (by simp [h.state])
  have hunsent : t.engine.accessSentQ = false := by
    apply Bool.eq_false_of_not_eq_true
    intro hsent
    exact absurd (h.sent hsent).2.2 (Bool.eq_false_iff.mp hrng)
  have hfire : t.engine.memFire i = false := by
    apply Bool.eq_false_of_not_eq_true
    intro hfire
    exact absurd (memFire_facts hfire).2 (Bool.eq_false_iff.mp hrng)
  have hnone : t.memAnswered i = false ∧ t.storeReleased i = false := by
    rw [← or_eq_false_iff, ← h.done_eq hport]
    apply Bool.eq_false_of_not_eq_true
    intro hdone
    have hsent := h.sent_of_done hport hdone
    rw [hunsent, hfire] at hsent
    cases hsent
  obtain ⟨hasked, hstored⟩ := h.unsent hunsent
  have hnxt : (misalignedBooks p).step t i =
      { t with
        engine := { t.engine with
          accessFaultQ := true
          pageFaultQ := false
          accessSentQ := false
          stateQ := .result }
        xlating := none
        asked := none
        fault := some ⟨t.engine.memEffectiveAddrO, true, false⟩ } := by
    simp only [misalignedBooks, opNext, writtenNext, faultNext, faultNow, askedNext,
      xlateOpen, h.clean.noFault, h.xlating, hasked, hstart, hxl, hfire, hnone, hrng,
      MisalignedState.step, h.state, false_eq_true, Bool.false_and, Bool.not_false,
      Bool.or_self, Bool.and_true, beq_self_eq_true, ite_self, if_false, if_true]
  rw [hnxt]
  refine .finished ⟨rfl, ⟨hwork.write, hwork.bypass, hwork.addr,
    hwork.bytes, hwork.index⟩, rfl, rfl, fun hno => (by cases hno), ?_⟩
  rintro f ⟨⟩
  refine ⟨rfl, rfl, rfl, t.engine.byteIndexQ.toNat, ?_, hstored.store, hstored.load⟩
  exact (Nat.le_add_right _ _).trans h.bytes_le

/-- What the data register holds after a component without a fault. -/
theorem Accessing.covered_after (hport : Ports frame mem t i)
    (hdone : t.engine.componentDone i) (hgood : t.engine.componentFault i = false) :
    (t.op.write → t.engine.assembled i = t.op.wdata) ∧
      (t.op.write = false → ∀ k < 8, lane (t.engine.assembled i) k =
        if k < t.engine.byteIndexQ.toNat + t.engine.componentBytes.toNat then
          mem (t.op.phys frame (t.op.byteAddr k)) else 0) := by
  have hwr := h.clean.working.write
  constructor
  · intro hstr
    rw [assembled, hwr, hstr, if_pos rfl]
    exact h.clean.covered.store hstr
  · intro hload k hk
    have hans : t.memAnswered i := by
      rw [h.done_eq hport, storeReleased, hload] at hdone
      simpa using hdone
    obtain ⟨hfire, hdata⟩ := h.answered hport hans
    rw [componentFault, hfire, Bool.true_and, or_eq_false_iff] at hgood
    exact h.assembled_next hload (hdata hload hgood.1 hgood.2) hk

theorem Accessing.next_of_done (hport : Ports frame mem t i)
    (hrng : t.engine.currentPaddrCacheable) (hdone : t.engine.componentDone i) :
    (misalignedBooks p).step t i =
      { engine := t.engine.accessed i
        op := t.op
        xlating := none
        asked := none
        written := t.writtenNext i
        fault := if t.engine.componentFault i then
          some ⟨t.engine.currentVaddr, i.memErrorI, i.memPageFaultI⟩ else none } := by
  have hstart := startFire_of_busy (t := t) (i := i) (by simp [h.state])
  have hxl := xlateFire_of_other (t := t) (i := i) (by simp [h.state])
  have hasked : t.askedNext i = none := by
    rw [askedNext, ← h.done_eq hport, hdone, if_pos rfl]
  have hflt : t.faultNext i = if t.engine.componentFault i then
      some ⟨t.engine.currentVaddr, i.memErrorI, i.memPageFaultI⟩ else none := by
    have hanswer : (t.memAnswered i && (i.memErrorI || i.memPageFaultI)) =
        t.engine.componentFault i := by
      rw [componentFault]
      cases hans : t.memAnswered i with
      | true => rw [(h.answered hport hans).1]
      | false =>
        have hfire : t.engine.memRespFire i = false := by
          rw [memAnswered] at hans
          rw [memRespFire, hans, Bool.false_and]
        rw [hfire]
    simp only [faultNext, hstart, h.clean.noFault, faultNow, hxl, h.state, hrng,
      hanswer, memEffectiveAddrO, false_eq_true, Bool.false_and,
      Bool.not_true, Bool.and_false, if_false]
  simp only [misalignedBooks, hasked, hflt, opNext, hstart, xlateOpen, hxl, h.xlating,
    MisalignedState.step, h.state, hrng, hdone, Bool.not_true, false_eq_true, if_false, if_true]

theorem Accessing.next_index (hmore : ¬ t.engine.lastByteQ.setWidth 4 < t.engine.nextByteIndex) :
    (t.engine.nextByteIndex.setWidth 3).toNat =
        t.engine.byteIndexQ.toNat + t.engine.componentBytes.toNat ∧
      t.engine.byteIndexQ.toNat + t.engine.componentBytes.toNat ≤ t.engine.lastByteQ.toNat := by
  have hnxt := nextByteIndex_toNat h.clean.working.componentOk
  have hlast := t.engine.lastByteQ.isLt
  rw [lt_def, toNat_setWidth, hnxt] at hmore
  rw [toNat_setWidth, hnxt]
  omega

theorem Accessing.last_index (hlast : t.engine.lastByteQ.setWidth 4 < t.engine.nextByteIndex) :
    t.engine.byteIndexQ.toNat + t.engine.componentBytes.toNat = t.op.bytes := by
  have hnxt := nextByteIndex_toNat h.clean.working.componentOk
  have hlt := t.engine.lastByteQ.isLt
  have hfits := h.clean.working.componentOk.fits
  rw [lt_def, toNat_setWidth, hnxt] at hlast
  rw [h.clean.working.bytes]
  omega

theorem Accessing.step_done (hport : Ports frame mem t i)
    (hrng : t.engine.currentPaddrCacheable) (hdone : t.engine.componentDone i) :
    Inv frame mem ((misalignedBooks p).step t i) := by
  have hwork := h.clean.working
  have hwritten := h.written_after (h.sent_of_done hport hdone)
  rw [h.next_of_done hport hrng hdone, accessed]
  cases hbad : t.engine.componentFault i with
  | true =>
    rw [if_pos rfl, if_pos rfl]
    refine .finished ⟨rfl, ⟨hwork.write, hwork.bypass, hwork.addr,
      hwork.bytes, hwork.index⟩, rfl, rfl, fun hno => (by cases hno), ?_⟩
    rintro f ⟨⟩
    exact ⟨rfl, rfl, rfl, _, h.bytes_le, hwritten.1, hwritten.2⟩
  | false =>
    have hcovered := h.covered_after hport hdone hbad
    rw [if_low, if_low]
    by_cases hlast : t.engine.lastByteQ.setWidth 4 < t.engine.nextByteIndex
    · rw [if_pos hlast]
      rw [h.last_index hlast] at hcovered hwritten
      refine .finished ⟨rfl, ⟨hwork.write, hwork.bypass, hwork.addr,
        hwork.bytes, hwork.index⟩, rfl, rfl, fun _ => ⟨h.clean.accessFault,
          h.clean.pageFault, ⟨hcovered.1, hcovered.2⟩, ⟨hwritten.1, hwritten.2⟩⟩, ?_⟩
      intro f hf
      cases hf
    obtain ⟨hidx, hle⟩ := h.next_index hlast
    rw [if_neg hlast]
    rw [← hidx] at hcovered hwritten hle
    by_cases hbyp : t.engine.translationBypassQ
    · rw [if_pos hbyp]
      have hclean : Clean (p := p) frame mem
          ⟨{ t.engine with
              accessSentQ := false
              dataQ := t.engine.assembled i
              byteIndexQ := t.engine.nextByteIndex.setWidth 3
              paddrQ := t.engine.paddrQ + t.engine.componentBytes.setWidth 64
              stateQ := .access }, t.op, none, none, t.writtenNext i, none⟩ :=
        ⟨⟨hwork.write, hwork.bypass, hwork.addr, hwork.bytes, hle⟩, rfl,
          h.clean.accessFault, h.clean.pageFault, ⟨hcovered.1, hcovered.2⟩⟩
      refine .accessing ⟨rfl, hclean, ?_, rfl, fun _ => ⟨rfl, hwritten.1, hwritten.2⟩, nofun⟩
      rw [hclean.working.currentVaddr]
      have hphys : ∀ v, t.op.phys frame v = v := fun v =>
        if_pos (hwork.bypass.symm.trans hbyp)
      have hbytes : t.engine.componentBytes.setWidth 64 =
          ofNat 64 t.engine.componentBytes.toNat := by
        apply BitVec.eq_of_toNat_eq
        rw [toNat_setWidth, toNat_ofNat]
      rw [hphys, hidx, ← byteAddr_add, ← hwork.currentVaddr, h.paddr, hphys, hbytes]
    rw [if_neg hbyp]
    have hpages : t.op.bypass = false := hwork.bypass.symm.trans (Bool.eq_false_of_not_eq_true hbyp)
    exact .translating ⟨rfl, ⟨⟨hwork.write, hwork.bypass, hwork.addr,
      hwork.bytes, hle⟩, rfl, h.clean.accessFault, h.clean.pageFault,
      ⟨hcovered.1, hcovered.2⟩⟩, hpages, ⟨hwritten.1, hwritten.2⟩, rfl, rfl, rfl⟩

end

theorem written_of_noFire (hbsy : t.engine.stateQ ≠ .idle)
    (hfire : t.engine.memFire i = false) : t.writtenNext i = t.written := by
  rw [writtenNext, startFire_of_busy hbsy, hfire, Bool.false_and, if_low, if_low]

/-- A component that is not done keeps its request, or loses it to a redirect. -/
theorem Accessing.waiting_sent (h : t.Accessing frame mem) : (t.engine.waiting i).accessSentQ =
      if i.flushI && !t.op.write && t.engine.accessSentQ then false
      else t.engine.memFire i || t.engine.accessSentQ := by
  rw [← h.clean.working.write]
  rfl

section

variable (h : t.Accessing frame mem) (hport : Ports frame mem t i)
include h hport

theorem Accessing.asked_waiting (hdone : t.engine.componentDone i = false) :
    t.askedNext i = if t.engine.memFire i then some t.engine.memAddrO
      else if i.flushI && !t.op.write then none else t.asked := by
  have hnone := h.done_eq hport
  rw [hdone, eq_comm, or_eq_false_iff] at hnone
  rw [askedNext, hnone.1, hnone.2, Bool.or_self, if_low]

/-- An access that is not presented any more has left no bytes of its component. -/
theorem Accessing.waiting_lost (hdone : t.engine.componentDone i = false)
    (hlost : (t.engine.waiting i).accessSentQ = false) : t.askedNext i = none ∧
      (t.op.write → t.writtenNext i = storeBytes frame t.op t.engine.byteIndexQ.toNat) ∧
      (t.op.write = false → t.writtenNext i = []) := by
  rw [h.waiting_sent] at hlost
  rw [h.asked_waiting hport hdone]
  cases hfire : t.engine.memFire i with
  | true =>
    rw [hfire, (memFire_facts hfire).1, Bool.and_false, if_low] at hlost
    cases hlost
  | false =>
    have hwritten := written_of_noFire (t := t) (i := i) (by simp [h.state]) hfire
    rw [hfire, Bool.false_or] at hlost
    rw [if_low]
    cases hsent : t.engine.accessSentQ with
    | true =>
      rw [hsent, Bool.and_true] at hlost
      cases hcan : i.flushI && !t.op.write with
      | true =>
        have hload : t.op.write = false := by
          rw [Bool.and_eq_true, Bool.not_eq_true'] at hcan
          exact hcan.2
        refine ⟨rfl, fun hstr => absurd hload (ne_false_of_eq_true hstr), ?_⟩
        intro hload
        exact hwritten.trans ((h.sent hsent).2.1.load hload)
      | false =>
        rw [hcan, if_low] at hlost
        cases hlost
    | false =>
      obtain ⟨hnothing, hstored⟩ := h.unsent hsent
      rw [hnothing, ite_self]
      exact ⟨rfl, fun hstr => hwritten.trans (hstored.store hstr),
        fun hload => hwritten.trans (hstored.load hload)⟩

/-- An access that stays presented has stored the bytes of its component. -/
theorem Accessing.waiting_kept (hrng : t.engine.currentPaddrCacheable)
    (hdone : t.engine.componentDone i = false) (hkept : (t.engine.waiting i).accessSentQ) :
    t.askedNext i = some t.engine.paddrQ ∧ t.engine.currentPaddrCacheable ∧
      (t.op.write → t.writtenNext i = storeBytes frame t.op
        (t.engine.byteIndexQ.toNat + t.engine.componentBytes.toNat)) ∧
      (t.op.write = false → t.writtenNext i = []) := by
  rw [h.waiting_sent] at hkept
  rw [h.asked_waiting hport hdone]
  cases hfire : t.engine.memFire i with
  | true =>
    have hwritten := h.written_after (i := i) (by rw [hfire, Bool.or_true])
    exact ⟨rfl, hrng, hwritten⟩
  | false =>
    have hwritten := written_of_noFire (t := t) (i := i) (by simp [h.state]) hfire
    rw [hfire, Bool.false_or] at hkept
    rw [if_low]
    cases hsent : t.engine.accessSentQ with
    | true =>
      obtain ⟨hsome, hstored, -⟩ := h.sent hsent
      rw [hsent, Bool.and_true] at hkept
      cases hcan : i.flushI && !t.op.write with
      | true =>
        rw [hcan, if_pos rfl] at hkept
        cases hkept
      | false =>
        rw [if_low]
        exact ⟨hsome, hrng, fun hstr => hwritten.trans (hstored.store hstr),
          fun hload => hwritten.trans (hstored.load hload)⟩
    | false =>
      rw [hsent, ite_self] at hkept
      cases hkept

theorem Accessing.step_waiting (hrng : t.engine.currentPaddrCacheable)
    (hdone : t.engine.componentDone i = false) : Inv frame mem ((misalignedBooks p).step t i) := by
  have hwork := h.clean.working
  have hstart := startFire_of_busy (t := t) (i := i) (by simp [h.state])
  have hxl := xlateFire_of_other (t := t) (i := i) (by simp [h.state])
  have hnone := h.done_eq hport
  rw [hdone, eq_comm, or_eq_false_iff] at hnone
  have hflt : t.faultNext i = none := by
    simp only [faultNext, hstart, h.clean.noFault, faultNow, hxl, h.state, hrng, hnone,
      false_eq_true, Bool.false_and, Bool.not_true, Bool.and_false, if_false]
  have hnxt : (misalignedBooks p).step t i =
      { engine := t.engine.waiting i
        op := t.op
        xlating := none
        asked := t.askedNext i
        written := t.writtenNext i
        fault := none } := by
    simp only [misalignedBooks, hflt, opNext, hstart, xlateOpen, hxl, h.xlating,
      MisalignedState.step, h.state, hrng, hdone, Bool.not_true, if_low]
  rw [hnxt]
  refine .accessing ⟨h.state, ⟨⟨hwork.write, hwork.bypass, hwork.addr,
    hwork.bytes, hwork.index⟩, rfl, h.clean.accessFault, h.clean.pageFault,
    ⟨h.clean.covered.store, h.clean.covered.load⟩⟩, h.paddr, rfl, ?_, ?_⟩
  · intro hlost
    obtain ⟨hasked, hstr, hload⟩ := h.waiting_lost hport hdone hlost
    exact ⟨hasked, hstr, hload⟩
  · intro hkept
    obtain ⟨hasked, hcach, hstr, hload⟩ := h.waiting_kept hport hrng hdone hkept
    exact ⟨hasked, ⟨hstr, hload⟩, hcach⟩

theorem Accessing.step : Inv frame mem ((misalignedBooks p).step t i) := by
  cases hrng : t.engine.currentPaddrCacheable with
  | false => exact h.step_refused hport hrng
  | true =>
    cases hdone : t.engine.componentDone i with
    | true => exact h.step_done hport hrng hdone
    | false => exact h.step_waiting hport hrng hdone

end

theorem Inv.step (h : Inv frame mem t) (hport : Ports frame mem t i) :
    Inv frame mem ((misalignedBooks p).step t i) := by
  cases h with
  | resting h => exact h.step hport
  | translating h => exact h.step hport
  | accessing h => exact h.step hport
  | finished h => exact h.step

end MisalignedBooks

end OpenRV64
