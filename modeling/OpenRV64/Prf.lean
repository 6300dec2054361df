/-
The physical register file: banks of storage behind read and write ports that compete in
ascending order for the places of each bank.
-/
import OpenRV64.PortGrant
import OpenRV64.SnoopFilter
import OpenRV64.SyncRun

namespace OpenRV64

open PortGrant

/-- The parameters of the register file with the conditions that its checks impose. -/
structure PrfParams where
  dataWidth : ℕ
  numRegs : ℕ
  regAddrWidth : ℕ
  numSlices : ℕ
  sliceAddrWidth : ℕ
  numBanks : ℕ
  readPorts : ℕ
  writePorts : ℕ
  readPortsPerBank : ℕ
  writePortsPerBank : ℕ
  zeroRegEnable : Bool
  zeroRegIndex : ℕ
  resetRegs : Bool
  readWriteBypass : Bool
  data_pos : 0 < dataWidth
  regs_pos : 0 < numRegs
  banks_ok : 0 < numBanks ∧ numRegs % numBanks = 0
  slices_pos : 0 < numSlices
  ports_pos : 0 < readPorts ∧ 0 < writePorts
  perBank_pos : 0 < readPortsPerBank ∧ 0 < writePortsPerBank
  reg_addr_ok : numRegs ≤ 2 ^ regAddrWidth
  slice_addr_ok : numSlices ≤ 2 ^ sliceAddrWidth
  zero_ok : zeroRegEnable = true → zeroRegIndex < numRegs

/-- What a port asks for. -/
structure PrfAccess (p : PrfParams) where
  valid : Bool
  addr : BitVec p.regAddrWidth
  slice : BitVec p.sliceAddrWidth

structure PrfInput (p : PrfParams) where
  read : ℕ → PrfAccess p
  write : ℕ → PrfAccess p
  writeDataI : ℕ → BitVec p.dataWidth

/-- The word of each row and slice of each bank. -/
structure PrfState (p : PrfParams) where
  bankQ : ℕ → ℕ → BitVec p.dataWidth

namespace PrfParams

variable (p : PrfParams)

/-- The width of a number below `n`, at least one. -/
def selectWidth (n : ℕ) : ℕ := if n ≤ 1 then 1 else clog2 n

def addressBank (a : BitVec p.regAddrWidth) : ℕ := a.toNat % p.numBanks

def addressRow (a : BitVec p.regAddrWidth) : ℕ := a.toNat / p.numBanks

def addressIsValid (a : BitVec p.regAddrWidth) : Bool := decide (a.toNat < p.numRegs)

def sliceIsValid (k : BitVec p.sliceAddrWidth) : Bool := decide (k.toNat < p.numSlices)

def addressUsesStorage (a : BitVec p.regAddrWidth) : Bool :=
  p.addressIsValid a && !(p.zeroRegEnable && a == BitVec.ofNat _ p.zeroRegIndex)

end PrfParams

namespace PrfAccess

variable {p : PrfParams}

def usesStorage (x : PrfAccess p) : Bool := p.addressUsesStorage x.addr

/-- Where the word of an access stands in its bank. -/
def word (x : PrfAccess p) : ℕ := p.addressRow x.addr * p.numSlices + x.slice.toNat

/-- Two accesses name the same register and slice. -/
def same (x y : PrfAccess p) : Bool := x.addr == y.addr && x.slice == y.slice

variable (ports : ℕ → PrfAccess p) (limit : ℕ)

/-- How many of the first ports a bank has accepted. -/
def bankUse : ℕ → ℕ → ℕ
  | 0, _ => 0
  | n + 1, bank => bankUse n bank +
      if (ports n).valid &&
          (!(ports n).usesStorage || !decide (limit ≤ bankUse n (p.addressBank (ports n).addr))) &&
          (ports n).usesStorage && p.addressBank (ports n).addr == bank then 1
      else 0

/-- `read_ready_o` and `write_ready_o`. -/
def readyO (n : ℕ) : Bool :=
  !(ports n).usesStorage || !decide (limit ≤ bankUse ports limit n (p.addressBank (ports n).addr))

def bankSelect (n : ℕ) : ℕ :=
  if (ports n).usesStorage then
    p.addressBank (ports n).addr % 2 ^ PrfParams.selectWidth p.numBanks
  else 0

def slotSelect (n : ℕ) : ℕ :=
  if (ports n).usesStorage then
    bankUse ports limit n (p.addressBank (ports n).addr) % 2 ^ PrfParams.selectWidth limit
  else 0

/-- An accepted access to a word of the storage. -/
def served (n : ℕ) : Bool :=
  (ports n).valid && readyO ports limit n && (ports n).usesStorage && p.sliceIsValid (ports n).slice

/-- A port is routed to a physical slot of a bank. -/
def routed (bank slot n : ℕ) : Bool :=
  served ports limit n && bankSelect ports n == bank % 2 ^ PrfParams.selectWidth p.numBanks &&
    slotSelect ports limit n == slot % 2 ^ PrfParams.selectWidth limit

end PrfAccess

namespace PrfState

open PrfAccess

variable {p : PrfParams} (s : PrfState p) (i : PrfInput p)

def readReadyO (n : ℕ) : Bool := readyO i.read p.readPortsPerBank n

def writeReadyO (n : ℕ) : Bool := readyO i.write p.writePortsPerBank n

def readServed (n : ℕ) : Bool := served i.read p.readPortsPerBank n

def writeServed (n : ℕ) : Bool := served i.write p.writePortsPerBank n

def bankReadData (bank slot : ℕ) : BitVec p.dataWidth :=
  (last (routed i.read p.readPortsPerBank bank slot) p.readPorts).elim 0
    fun n => s.bankQ bank (i.read n).word

/-- The accepted write whose data a read takes instead of the stored word. -/
def bypass (n : ℕ) : Option ℕ :=
  if p.readWriteBypass then
    last (fun m => writeServed i m && (i.write m).same (i.read n)) p.writePorts
  else none

def readDataO (n : ℕ) : BitVec p.dataWidth :=
  if readServed i n then
    (bypass i n).elim
      (s.bankReadData i (bankSelect i.read n) (slotSelect i.read p.readPortsPerBank n))
      i.writeDataI
  else 0

/-- The write on a physical slot of a bank. -/
def bankWrite (bank slot : ℕ) : Option ℕ :=
  last (routed i.write p.writePortsPerBank bank slot) p.writePorts

/-- The last slot of a bank that writes a word. -/
def lastSlot (bank word : ℕ) : Option ℕ :=
  last (fun slot => (bankWrite i bank slot).any fun m => (i.write m).word == word)
    p.writePortsPerBank

def step : PrfState p where
  bankQ bank word :=
    ((lastSlot i bank word).bind (bankWrite i bank)).elim (s.bankQ bank word) i.writeDataI

/-- `debug_regs_o`. -/
def debugRegO (reg slice : ℕ) : BitVec p.dataWidth :=
  if p.zeroRegEnable && reg == p.zeroRegIndex then 0
  else s.bankQ (reg % p.numBanks) (reg / p.numBanks * p.numSlices + slice)

end PrfState

/-- `openrv64_prf`.  Without a reset of the registers they start with any contents. -/
def prf (p : PrfParams) : Sync.Circuit (PrfState p) (PrfInput p) where
  Init s := p.resetRegs = true → ∀ bank word, s.bankQ bank word = 0
  step s i := s.step i

end OpenRV64
