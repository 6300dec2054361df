/-
The register file against one memory with as many ports as are asked for.
-/
import OpenRV64.Prf

namespace OpenRV64

open PortGrant Sync PrfAccess PrfParams PrfState
open Bool (and_eq_true)

variable {p : PrfParams}

namespace PrfParams

theorem le_two_pow_selectWidth (n : ℕ) : n ≤ 2 ^ selectWidth n := by
  rw [selectWidth]
  split_ifs with h
  · omega
  · exact le_two_pow_clog2 n

theorem addressBank_lt (a : BitVec p.regAddrWidth) : p.addressBank a < p.numBanks :=
  Nat.mod_lt _ p.banks_ok.1

/-- No two registers share a row of a bank. -/
theorem eq_of_bank_row {a a' : BitVec p.regAddrWidth}
    (hbank : p.addressBank a = p.addressBank a') (hrow : p.addressRow a = p.addressRow a') :
    a = a' := by
  have hval : a.toNat = a'.toNat := by
    rw [← Nat.mod_add_div a.toNat p.numBanks, ← Nat.mod_add_div a'.toNat p.numBanks]
    exact congrArg₂ (fun bank row => bank + p.numBanks * row) hbank hrow
  exact BitVec.eq_of_toNat_eq hval

theorem addressRow_lt {a : BitVec p.regAddrWidth} (h : p.addressIsValid a) :
    p.addressRow a < p.numRegs / p.numBanks := by
  have hlt : a.toNat < p.numRegs := of_decide_eq_true h
  have hdvd : p.numBanks ∣ p.numRegs := Nat.dvd_of_mod_eq_zero p.banks_ok.2
  exact Nat.div_lt_div_of_lt_of_dvd hdvd hlt

/-- The only register without storage is the zero register. -/
theorem addressUsesStorage_eq {a : BitVec p.regAddrWidth} (h : p.addressIsValid a) :
    p.addressUsesStorage a = !(p.zeroRegEnable && a.toNat == p.zeroRegIndex) := by
  rw [addressUsesStorage, h, Bool.true_and]
  cases hz : p.zeroRegEnable with
  | false => rfl
  | true =>
    have hfits : p.zeroRegIndex < 2 ^ p.regAddrWidth := (p.zero_ok hz).trans_le p.reg_addr_ok
    have heq : (a == BitVec.ofNat _ p.zeroRegIndex) = (a.toNat == p.zeroRegIndex) := by
      rw [Bool.eq_iff_iff, beq_iff_eq, beq_iff_eq, ← BitVec.toNat_inj, BitVec.toNat_ofNat,
        Nat.mod_eq_of_lt hfits]
    rw [heq]

end PrfParams

namespace PrfAccess

variable (ports : ℕ → PrfAccess p) (limit : ℕ)

/-- The bank that a port asks for. -/
def bankOf (n : ℕ) : Option ℕ :=
  if (ports n).valid && (ports n).usesStorage then some (p.addressBank (ports n).addr) else none

variable {ports limit} {n m bank slot : ℕ}

theorem bankOf_eq_some : bankOf ports n = some bank ↔ (ports n).valid ∧ (ports n).usesStorage ∧
        p.addressBank (ports n).addr = bank := by
  rw [bankOf, Option.ite_none_right_eq_some, and_eq_true, Option.some.injEq, and_assoc]

theorem bankUse_eq : bankUse ports limit n bank = use (bankOf ports) limit n bank := by
  induction n generalizing bank with
  | zero => rfl
  | succ n ih =>
    rw [bankUse, use, ih]
    refine congrArg _ (if_congr ?_ rfl rfl)
    rw [bankOf_eq_some, ih]
    cases (ports n).valid <;> cases (ports n).usesStorage <;> simp
    exact and_comm.trans (and_congr_right fun h => by rw [h])

/-- A port that asks for a word is ready while its bank has a place. -/
theorem readyO_iff (hval : (ports n).valid) (huses : (ports n).usesStorage) :
    readyO ports limit n ↔ Granted (bankOf ports) limit n (p.addressBank (ports n).addr) := by
  rw [readyO, huses, bankUse_eq, Granted, bankOf_eq_some]
  simp [hval, huses]

theorem served_iff :
    served ports limit n ↔ Granted (bankOf ports) limit n (p.addressBank (ports n).addr) ∧
        p.sliceIsValid (ports n).slice := by
  rw [served, and_eq_true, and_eq_true, and_eq_true]
  constructor
  · rintro ⟨⟨⟨hval, hrdy⟩, huses⟩, hslice⟩
    exact ⟨(readyO_iff hval huses).mp hrdy, hslice⟩
  · rintro ⟨hgranted, hslice⟩
    obtain ⟨hval, huses, -⟩ := bankOf_eq_some.mp hgranted.1
    exact ⟨⟨⟨hval, (readyO_iff hval huses).mpr hgranted⟩, huses⟩, hslice⟩

/-- The place of an access in its bank fits into the register that keeps it. -/
theorem slotSelect_of_granted (h : Granted (bankOf ports) limit n (p.addressBank (ports n).addr)) :
    slotSelect ports limit n = use (bankOf ports) limit n (p.addressBank (ports n).addr) := by
  obtain ⟨-, huses, -⟩ := bankOf_eq_some.mp h.1
  rw [slotSelect, if_pos huses, bankUse_eq]
  exact Nat.mod_eq_of_lt (h.2.trans_le (le_two_pow_selectWidth limit))

theorem bankSelect_of_uses (h : (ports n).usesStorage) :
    bankSelect ports n = p.addressBank (ports n).addr := by
  rw [bankSelect, if_pos h]
  exact Nat.mod_eq_of_lt ((addressBank_lt _).trans_le (le_two_pow_selectWidth p.numBanks))

/-- The slot of a bank has the one access whose place it is. -/
theorem routed_iff (hbank : bank < p.numBanks) (hslot : slot < limit) :
    routed ports limit bank slot n ↔
      Granted (bankOf ports) limit n bank ∧ p.sliceIsValid (ports n).slice ∧
        use (bankOf ports) limit n bank = slot := by
  rw [routed, and_eq_true, and_eq_true, served_iff, beq_iff_eq, beq_iff_eq,
    Nat.mod_eq_of_lt (hbank.trans_le (le_two_pow_selectWidth p.numBanks)),
    Nat.mod_eq_of_lt (hslot.trans_le (le_two_pow_selectWidth limit))]
  constructor
  · rintro ⟨⟨⟨hgranted, hslice⟩, hb⟩, hs⟩
    obtain ⟨-, huses, -⟩ := bankOf_eq_some.mp hgranted.1
    rw [bankSelect_of_uses huses] at hb
    subst hb
    rw [slotSelect_of_granted hgranted] at hs
    exact ⟨hgranted, hslice, hs⟩
  · rintro ⟨hgranted, hslice, hs⟩
    obtain ⟨-, huses, rfl⟩ := bankOf_eq_some.mp hgranted.1
    refine ⟨⟨⟨hgranted, hslice⟩, bankSelect_of_uses huses⟩, ?_⟩
    rw [slotSelect_of_granted hgranted, hs]

/-- The access of a place comes out of the scan over all ports. -/
theorem last_routed {ports' : ℕ} (hn : n < ports') (hgranted : Granted (bankOf ports) limit n bank)
    (hslice : p.sliceIsValid (ports n).slice) :
    last (routed ports limit bank (use (bankOf ports) limit n bank)) ports' = some n := by
  obtain ⟨-, -, hb⟩ := bankOf_eq_some.mp hgranted.1
  have hbank : bank < p.numBanks := hb ▸ addressBank_lt _
  refine last_eq_of_unique hn ((routed_iff hbank hgranted.2).mpr ⟨hgranted, hslice, rfl⟩) ?_
  intro k hk
  obtain ⟨hgranted', -, huse⟩ := (routed_iff hbank hgranted.2).mp hk
  exact place_unique hgranted' hgranted huse

theorem eq_of_word {x : PrfAccess p} {a : BitVec p.regAddrWidth} {k : BitVec p.sliceAddrWidth}
    (hx : p.sliceIsValid x.slice) (hk : p.sliceIsValid k)
    (hbank : p.addressBank x.addr = p.addressBank a)
    (hwrd : x.word = p.addressRow a * p.numSlices + k.toNat) : x.addr = a ∧ x.slice = k := by
  have hxlt : x.slice.toNat < p.numSlices := of_decide_eq_true hx
  have hklt : k.toNat < p.numSlices := of_decide_eq_true hk
  rw [word] at hwrd
  have hrow : p.addressRow x.addr = p.addressRow a := by
    have hdiv := congrArg (· / p.numSlices) hwrd
    simpa [Nat.mul_comm _ p.numSlices, Nat.mul_add_div p.slices_pos,
      Nat.div_eq_of_lt hxlt, Nat.div_eq_of_lt hklt] using hdiv
  rw [hrow] at hwrd
  exact ⟨eq_of_bank_row hbank hrow, BitVec.eq_of_toNat_eq (Nat.add_left_cancel hwrd)⟩

/-- Port `n` makes no request. -/
def withdraw (ports : ℕ → PrfAccess p) (n k : ℕ) : PrfAccess p :=
  if k = n then { ports k with valid := false } else ports k

section Withdraw

variable (h : ((ports m).valid && readyO ports limit m) = false) (k : ℕ)

theorem withdraw_addr : (withdraw ports m k).addr = (ports k).addr := by
  rw [withdraw]
  split_ifs <;> rfl

theorem withdraw_slice : (withdraw ports m k).slice = (ports k).slice := by
  rw [withdraw]
  split_ifs <;> rfl

theorem withdraw_usesStorage : (withdraw ports m k).usesStorage = (ports k).usesStorage :=
  congrArg p.addressUsesStorage (withdraw_addr k)

theorem withdraw_word : (withdraw ports m k).word = (ports k).word := by
  rw [word, word, withdraw_addr, withdraw_slice]

theorem bankOf_withdraw : bankOf (withdraw ports m) k = if k = m then none else bankOf ports k := by
  rw [bankOf, withdraw_usesStorage, withdraw_addr, withdraw]
  split_ifs <;> simp_all [bankOf]

include h

/-- A request that is not accepted takes no place of a bank. -/
theorem bankUse_withdraw :
    bankUse (withdraw ports m) limit n bank = bankUse ports limit n bank := by
  have hno : ∀ b, ¬ Granted (bankOf ports) limit m b := by
    intro b hgranted
    obtain ⟨hval, huses, rfl⟩ := bankOf_eq_some.mp hgranted.1
    rw [hval, (readyO_iff hval huses).mpr hgranted] at h
    cases h
  rw [bankUse_eq, bankUse_eq, funext bankOf_withdraw]
  exact use_update hno

theorem readyO_withdraw : readyO (withdraw ports m) limit k = readyO ports limit k := by
  rw [readyO, readyO, withdraw_usesStorage, withdraw_addr, bankUse_withdraw h]

theorem served_withdraw : served (withdraw ports m) limit k = served ports limit k := by
  rw [served, served, readyO_withdraw h, withdraw_usesStorage, withdraw_slice]
  by_cases hk : k = m
  · subst hk
    rw [h, withdraw, if_pos rfl]
    rfl
  · rw [withdraw, if_neg hk]

theorem routed_withdraw (slot : ℕ) :
    routed (withdraw ports m) limit bank slot k = routed ports limit bank slot k := by
  rw [routed, routed, served_withdraw h, bankSelect, slotSelect, withdraw_usesStorage,
    withdraw_addr, bankUse_withdraw h]
  rfl

end Withdraw

end PrfAccess

/-- One memory with a word for each slice of each register. -/
abbrev IdealMemory (p : PrfParams) :=
  BitVec p.regAddrWidth → BitVec p.sliceAddrWidth → BitVec p.dataWidth

namespace IdealMemory

/-- The accepted write to a word that takes effect: the one on the highest port. -/
def lastWrite (i : PrfInput p) (a : BitVec p.regAddrWidth) (k : BitVec p.sliceAddrWidth) :
    Option ℕ :=
  last (fun n => writeServed i n && ((i.write n).addr == a && (i.write n).slice == k))
    p.writePorts

variable (m : IdealMemory p) (i : PrfInput p)

/-- All accepted writes of a cycle. -/
def write : IdealMemory p := fun a k => (lastWrite i a k).elim (m a k) i.writeDataI

/-- The word that port `n` reads, with or without the writes of the cycle. -/
def read (n : ℕ) : BitVec p.dataWidth :=
  if readServed i n then
    if p.readWriteBypass then m.write i (i.read n).addr (i.read n).slice
    else m (i.read n).addr (i.read n).slice
  else 0

end IdealMemory

namespace PrfState

open PrfAccess

variable (s : PrfState p) (i : PrfInput p) (m : IdealMemory p)

/-- The banks keep the words of the memory. -/
def Holds : Prop :=
  ∀ a k, p.addressUsesStorage a → p.sliceIsValid k →
    s.bankQ (p.addressBank a) (p.addressRow a * p.numSlices + k.toNat) = m a k

variable {s i m}

theorem bankReadData_of_served {n : ℕ} (hn : n < p.readPorts) (h : readServed i n) :
    s.bankReadData i (bankSelect i.read n) (slotSelect i.read p.readPortsPerBank n) =
      s.bankQ (p.addressBank (i.read n).addr) (i.read n).word := by
  obtain ⟨hgranted, hslice⟩ := served_iff.mp h
  obtain ⟨-, huses, -⟩ := bankOf_eq_some.mp hgranted.1
  rw [bankReadData, bankSelect_of_uses huses, slotSelect_of_granted hgranted,
    last_routed hn hgranted hslice]
  rfl

/-- An accepted read sees the memory. -/
theorem readDataO_of_holds {n : ℕ} (h : s.Holds m) (hn : n < p.readPorts) :
    s.readDataO i n = m.read i n := by
  rw [readDataO, IdealMemory.read]
  split_ifs with hserved hbyp
  · obtain ⟨hgranted, hslice⟩ := served_iff.mp hserved
    obtain ⟨-, huses, -⟩ := bankOf_eq_some.mp hgranted.1
    rw [bankReadData_of_served hn hserved, bypass, if_pos hbyp, IdealMemory.write,
      ← h _ _ huses hslice]
    rfl
  · obtain ⟨hgranted, hslice⟩ := served_iff.mp hserved
    obtain ⟨-, huses, -⟩ := bankOf_eq_some.mp hgranted.1
    rw [bankReadData_of_served hn hserved, bypass, if_neg hbyp]
    exact h _ _ huses hslice
  · rfl

/-- The write of a word on the slots of its bank is the last one of all accepted writes. -/
theorem bankWrite_lastSlot {a : BitVec p.regAddrWidth} {k : BitVec p.sliceAddrWidth}
    (hk : p.sliceIsValid k) :
    (lastSlot i (p.addressBank a) (p.addressRow a * p.numSlices + k.toNat)).bind
      (bankWrite i (p.addressBank a)) = IdealMemory.lastWrite i a k := by
  let place := fun n => use (bankOf i.write) p.writePortsPerBank n (p.addressBank a)
  -- a served write to the word stands on the slot of its place
  have hplaced : ∀ n < p.writePorts, (writeServed i n &&
      ((i.write n).addr == a && (i.write n).slice == k)) →
      Granted (bankOf i.write) p.writePortsPerBank n (p.addressBank a) ∧
        bankWrite i (p.addressBank a) (place n) = some n := by
    intro n hn h
    rw [and_eq_true, and_eq_true, beq_iff_eq, beq_iff_eq] at h
    obtain ⟨hserved, rfl, -⟩ := h
    obtain ⟨hgranted, hslice⟩ := served_iff.mp hserved
    exact ⟨hgranted, last_routed hn hgranted hslice⟩
  have hlast : lastSlot i (p.addressBank a) (p.addressRow a * p.numSlices + k.toNat) =
      (IdealMemory.lastWrite i a k).map place := by
    refine last_map place ?_ ?_ ?_
    · intro n hn h
      obtain ⟨hgranted, hwr⟩ := hplaced n hn h
      rw [and_eq_true, and_eq_true, beq_iff_eq, beq_iff_eq] at h
      refine ⟨hgranted.2, ?_⟩
      rw [hwr, Option.any_some, beq_iff_eq, word, h.2.1, h.2.2]
    · intro slot hslot h
      obtain ⟨n, hwr, hwrd⟩ := (Option.any_eq_true _ _).mp h
      obtain ⟨hn, hrouted, -⟩ := last_eq_some_iff.mp hwr
      obtain ⟨hgranted, hslice, huse⟩ := (routed_iff (addressBank_lt a) hslot).mp hrouted
      have hb := (bankOf_eq_some.mp hgranted.1).2.2
      obtain ⟨haddr, hk'⟩ := eq_of_word hslice hk hb (beq_iff_eq.mp hwrd)
      refine ⟨n, hn, ?_, huse⟩
      rw [and_eq_true, and_eq_true, beq_iff_eq, beq_iff_eq]
      exact ⟨served_iff.mpr ⟨hb ▸ hgranted, hslice⟩, haddr, hk'⟩
    · exact fun n n' _ _ hlt => lt_of_use_lt hlt
  rw [hlast]
  cases hwr : IdealMemory.lastWrite i a k with
  | none => rfl
  | some n =>
    obtain ⟨hn, h, -⟩ := last_eq_some_iff.mp hwr
    exact (hplaced n hn h).2

theorem Holds.step (h : s.Holds m) : (s.step i).Holds (m.write i) := by
  intro a k huses hk
  rw [IdealMemory.write, ← bankWrite_lastSlot hk, ← h a k huses hk]
  rfl

/-- Two inputs that the surroundings cannot tell apart: the same next state, read data and
ready signals. -/
structure SameEffect (s : PrfState p) (i i' : PrfInput p) : Prop where
  next : s.step i' = s.step i
  data : ∀ n, s.readDataO i' n = s.readDataO i n
  readReady : ∀ n, readReadyO i' n = readReadyO i n
  writeReady : ∀ n, writeReadyO i' n = writeReadyO i n

/-- A read that is not accepted has no effect. -/
theorem sameEffect_read {n : ℕ} (h : ((i.read n).valid && readReadyO i n) = false) :
    SameEffect s i { i with read := withdraw i.read n } where
  next := rfl
  data k := by
    have hserved : readServed { i with read := withdraw i.read n } k = readServed i k :=
      served_withdraw h k
    have hrouted : ∀ bank slot, routed (withdraw i.read n) p.readPortsPerBank bank slot =
        routed i.read p.readPortsPerBank bank slot :=
      fun _ slot => funext fun k => routed_withdraw h k slot
    simp only [readDataO, hserved, bypass, bankReadData, hrouted, same, withdraw_addr,
      withdraw_slice, withdraw_word, bankSelect, slotSelect, withdraw_usesStorage,
      bankUse_withdraw h]
    rfl
  readReady := readyO_withdraw h
  writeReady _ := rfl

/-- A write that is not accepted has no effect. -/
theorem sameEffect_write {n : ℕ} (h : ((i.write n).valid && writeReadyO i n) = false) :
    SameEffect s i { i with write := withdraw i.write n } where
  next := by
    have hwr : ∀ bank, bankWrite { i with write := withdraw i.write n } bank = bankWrite i bank :=
      fun _ => funext fun slot =>
        congrArg (last · p.writePorts) (funext fun k => routed_withdraw h k slot)
    simp only [step, lastSlot, hwr, withdraw_word]
  data k := by
    have hserved : ∀ m, writeServed { i with write := withdraw i.write n } m = writeServed i m :=
      served_withdraw h
    simp only [readDataO, bypass, hserved, same, withdraw_addr, withdraw_slice]
    rfl
  readReady _ := rfl
  writeReady := readyO_withdraw h

end PrfState

/-- Each bank accepts the first requests for it, up to the limit. -/
structure Arbitrated (ports : ℕ → PrfAccess p) (limit : ℕ) : Prop where
  /-- However many ports there are. -/
  atMost : ∀ n bank, Nat.count (fun k => (ports k).valid && readyO ports limit k &&
    (ports k).usesStorage && p.addressBank (ports k).addr == bank) n ≤ limit
  ready : ∀ n, readyO ports limit n ↔ ((ports n).usesStorage →
    Nat.count (fun k => (ports k).valid && (ports k).usesStorage &&
      p.addressBank (ports k).addr == p.addressBank (ports n).addr) n < limit)
  earlier : ∀ n k, k < n → (ports n).usesStorage →
    p.addressBank (ports k).addr = p.addressBank (ports n).addr →
      readyO ports limit n → readyO ports limit k

theorem arbitrated (ports : ℕ → PrfAccess p) (limit : ℕ) : Arbitrated ports limit where
  atMost n bank := by
    refine (count_granted fun k => ?_).trans_le (@use_le (bankOf ports) limit n bank)
    rw [and_eq_true, beq_iff_eq, and_eq_true, and_eq_true]
    constructor
    · rintro ⟨⟨⟨hval, hrdy⟩, huses⟩, rfl⟩
      exact (readyO_iff hval huses).mp hrdy
    · intro hgranted
      obtain ⟨hval, huses, rfl⟩ := bankOf_eq_some.mp hgranted.1
      exact ⟨⟨⟨hval, (readyO_iff hval huses).mpr hgranted⟩, huses⟩, rfl⟩
  ready n := by
    have hasks : ∀ k, ((ports k).valid && (ports k).usesStorage &&
        p.addressBank (ports k).addr == p.addressBank (ports n).addr) ↔
          bankOf ports k = some (p.addressBank (ports n).addr) := by
      intro k
      rw [bankOf_eq_some, and_eq_true, beq_iff_eq, and_eq_true, and_assoc]
    rw [readyO, bankUse_eq, use_eq_min hasks]
    cases (ports n).usesStorage with
    | false => simp
    | true => simp
  earlier n k hlt huses hbank hrdy := by
    rw [readyO, bankUse_eq] at hrdy ⊢
    rw [hbank]
    have hmono := @use_mono (bankOf ports) limit n k (p.addressBank (ports n).addr) hlt.le
    cases (ports k).usesStorage with
    | false => rfl
    | true =>
      simp only [huses, Bool.not_true, Bool.false_or, Bool.not_eq_true', decide_eq_false_iff_not]
        at hrdy ⊢
      omega

variable (b : Behaviour (prf p) anyEnv)

/-- The one memory that starts with the words of the banks and takes all accepted writes. -/
def ideal : ℕ → IdealMemory p
  | 0 => fun a k => (b.state 0).bankQ (p.addressBank a) (p.addressRow a * p.numSlices + k.toNat)
  | n + 1 => (ideal n).write (b.input n)

theorem holds_ideal (n : ℕ) : (b.state n).Holds (ideal b n) := by
  induction n with
  | zero => exact fun a k _ _ => rfl
  | succ n ih =>
    rw [b.next n]
    exact ih.step

/-- In cycle `n` the register file is the one memory. -/
structure IsIdeal (n : ℕ) : Prop where
  reads : ∀ port < p.readPorts,
    (b.state n).readDataO (b.input n) port = (ideal b n).read (b.input n) port
  contents : ∀ a k, p.addressIsValid a → p.sliceIsValid k → (b.state n).debugRegO a.toNat k.toNat =
      if p.addressUsesStorage a then ideal b n a k else 0
  readBanks : Arbitrated (b.input n).read p.readPortsPerBank
  writeBanks : Arbitrated (b.input n).write p.writePortsPerBank
  rejectedRead : ∀ port, ((b.input n).read port).valid →
    readReadyO (b.input n) port = false → PrfState.SameEffect (b.state n) (b.input n)
        { b.input n with read := withdraw (b.input n).read port }
  rejectedWrite : ∀ port, ((b.input n).write port).valid →
    writeReadyO (b.input n) port = false → PrfState.SameEffect (b.state n) (b.input n)
        { b.input n with write := withdraw (b.input n).write port }

/-- Each register has a row of its own in its bank. -/
structure RowsApart (p : PrfParams) : Prop where
  within : ∀ a, p.addressIsValid a →
    p.addressBank a < p.numBanks ∧ p.addressRow a < p.numRegs / p.numBanks
  apart : ∀ a a', p.addressBank a = p.addressBank a' → p.addressRow a = p.addressRow a' → a = a'

/-- The register file is one memory with as many ports as are asked for. -/
theorem prf_ideal : RowsApart p ∧ ∀ n, IsIdeal b n := by
  refine ⟨⟨fun a ha => ⟨addressBank_lt a, addressRow_lt ha⟩,
    fun a a' => eq_of_bank_row⟩,
    fun n => ⟨?_, ?_, arbitrated _ _, arbitrated _ _, ?_, ?_⟩⟩
  · exact fun port hport => readDataO_of_holds (holds_ideal b n) hport
  · intro a k ha hk
    have huses := addressUsesStorage_eq ha
    rw [debugRegO, huses]
    cases hzero : p.zeroRegEnable && a.toNat == p.zeroRegIndex with
    | true => rfl
    | false =>
      rw [hzero] at huses
      exact holds_ideal b n a k huses hk
  · intro port hvalid hready
    exact sameEffect_read (by rw [hvalid, hready]; rfl)
  · intro port hvalid hready
    exact sameEffect_write (by rw [hvalid, hready]; rfl)

end OpenRV64
