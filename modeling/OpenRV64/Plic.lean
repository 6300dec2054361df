/-
The platform interrupt controller: one gateway for each source, one context for each hart,
and the claim and completion accesses between them.
-/
import OpenRV64.SyncRun
import Mathlib.Data.List.FinRange

namespace OpenRV64

open Sync
open List (finRange mem_append mem_singleton mem_finRange)

/-- The bounds are those of integer parameters. -/
structure PlicParams where
  numHarts : ℕ
  numSources : ℕ
  priorityWidth : ℕ
  sources_lt : numSources < 0x80000000

/-- Source `k` has the architectural identifier `k + 1`. -/
structure PlicState (p : PlicParams) where
  priorityQ : Fin p.numSources → BitVec p.priorityWidth
  pendingQ : Fin p.numSources → Bool
  inServiceQ : Fin p.numSources → Bool
  enableQ : Fin p.numHarts → Fin p.numSources → Bool
  thresholdQ : Fin p.numHarts → BitVec p.priorityWidth

structure PlicInput (p : PlicParams) where
  irqSourcesI : Fin p.numSources → Bool
  memValidI : Bool
  memWriteI : Bool
  memAddrI : BitVec 64
  memWdataI : BitVec 64
  memWstrbI : BitVec 8

namespace Plic

/-! ### The register map -/

def priorityOffset (k : ℕ) : ℕ := (k + 1) * 4

def pendingOffset (k : ℕ) : ℕ := 0x1000 + (k + 1) / 32 * 4

def enableOffset (h k : ℕ) : ℕ := 0x2000 + h * 0x80 + (k + 1) / 32 * 4

def thresholdOffset (h : ℕ) : ℕ := 0x200000 + h * 0x1000

def claimOffset (h : ℕ) : ℕ := 0x200000 + h * 0x1000 + 4

/-- Where source `k` stands in the 64-bit word of its pending and enable bits. -/
def bitPosition (k : ℕ) : ℕ := (k + 1) / 32 % 2 * 32 + (k + 1) % 32

def setSlice {n : ℕ} (r : BitVec 64) (low : ℕ) (v : BitVec n) : BitVec 64 :=
  (r &&& ~~~((BitVec.allOnes n).setWidth 64 <<< low)) ||| (v.setWidth 64 <<< low)

end Plic

open Plic

namespace PlicInput

variable {p : PlicParams} (i : PlicInput p)

def readAccept : Bool := i.memValidI && !i.memWriteI

def writeAccept : Bool := i.memValidI && i.memWriteI

/-- The address is in the 32-bit word of a register. -/
def atWord (offset : ℕ) : Bool := i.memAddrI.toNat / 4 == offset / 4

/-- The address is in the 64-bit word of a register. -/
def atLine (offset : ℕ) : Bool := i.memAddrI.toNat / 8 == offset / 8

/-- All four bytes of word `n` are written. -/
def fullWord (n : ℕ) : Bool := i.memWstrbI.extractLsb' (n % 2 * 4) 4 == 0b1111

def claims (h : ℕ) : Bool := i.readAccept && i.atWord (claimOffset h)

end PlicInput

namespace PlicState

variable {p : PlicParams} (s : PlicState p) (i : PlicInput p)

/-- A source displaces the best so far only with a strictly higher priority. -/
def selectStep (h : Fin p.numHarts) (best : ℕ × BitVec p.priorityWidth) (k : Fin p.numSources) :
    ℕ × BitVec p.priorityWidth :=
  if s.pendingQ k && s.enableQ h k && decide (best.2 < s.priorityQ k) then (k + 1, s.priorityQ k)
  else best

/-- `select_interrupt` over the sources in ascending order. -/
def selectInterrupt (h : Fin p.numHarts) : ℕ :=
  ((List.finRange p.numSources).foldl (s.selectStep h) (0, s.thresholdQ h)).1

def seipO (h : Fin p.numHarts) : Bool := s.selectInterrupt h != 0

/-- Priorities and pending bits, then for each hart its enable bits and its context. -/
def memRdataO : BitVec 64 :=
  (List.finRange p.numHarts).foldl (fun r (h : Fin p.numHarts) =>
    let r := (List.finRange p.numSources).foldl (fun r (k : Fin p.numSources) =>
      if i.atLine (enableOffset h k) then
        setSlice r (bitPosition k) (BitVec.ofBool (s.enableQ h k))
      else r) r
    if i.atLine (thresholdOffset h) then
      BitVec.ofNat 32 (s.selectInterrupt h) ++ (s.thresholdQ h).setWidth 32
    else r)
  ((List.finRange p.numSources).foldl (fun r (k : Fin p.numSources) =>
    let r := if i.atLine (priorityOffset k) then
        setSlice r ((k.val + 1) % 2 * 32) ((s.priorityQ k).setWidth 32)
      else r
    if i.atLine (pendingOffset k) then setSlice r (bitPosition k) (BitVec.ofBool (s.pendingQ k))
    else r) 0)

/-- A claim read of some context selects source `k`. -/
def claimed (k : Fin p.numSources) : Bool :=
  (List.finRange p.numHarts).any fun h => i.claims h && s.selectInterrupt h == k + 1

/-- A completion of source `k` by a context for which it is enabled. -/
def completed (k : Fin p.numSources) : Bool :=
  (List.finRange p.numHarts).any fun h =>
    i.writeAccept && i.atWord (claimOffset h) && i.fullWord 1 &&
      (i.memWdataI.extractLsb' 32 32).toNat == k + 1 && s.enableQ h k

/-- One clock edge of `openrv64_plic`. -/
def step : PlicState p where
  pendingQ k :=
    if s.claimed i k then false
    else if i.irqSourcesI k && !s.pendingQ k && !s.inServiceQ k then true
    else s.pendingQ k
  inServiceQ k :=
    if s.completed i k then false else if s.claimed i k then true else s.inServiceQ k
  priorityQ k :=
    if i.writeAccept && i.atWord (priorityOffset k) && i.fullWord (k + 1) then
      i.memWdataI.extractLsb' ((k.val + 1) % 2 * 32) p.priorityWidth
    else s.priorityQ k
  enableQ h k :=
    if i.writeAccept && i.atWord (enableOffset h k) && i.fullWord ((k + 1) / 32) then
      i.memWdataI.getLsbD (bitPosition k)
    else s.enableQ h k
  thresholdQ h :=
    if i.writeAccept && i.atWord (thresholdOffset h) && i.fullWord 0 then
      i.memWdataI.setWidth p.priorityWidth
    else s.thresholdQ h

/-- What reset leaves behind. -/
def reset : PlicState p :=
  ⟨fun _ => 0, fun _ => false, fun _ => false, fun _ _ => false, fun _ => 0⟩

/-! ### Selection -/

structure Eligible (h : Fin p.numHarts) (k : Fin p.numSources) : Prop where
  pending : s.pendingQ k
  enabled : s.enableQ h k
  above : s.thresholdQ h < s.priorityQ k

/-- `k` is the lowest of the eligible sources of the highest priority. -/
structure Best (h : Fin p.numHarts) (k : Fin p.numSources) : Prop where
  eligible : s.Eligible h k
  highest : ∀ j, s.Eligible h j → s.priorityQ j ≤ s.priorityQ k
  lowest : ∀ j, s.Eligible h j → s.priorityQ j = s.priorityQ k → k ≤ j

/-- What a claim by a context answers. -/
def Selects (h : Fin p.numHarts) (id : ℕ) : Prop :=
  (id = 0 ∧ ∀ k, ¬ s.Eligible h k) ∨ ∃ k, id = k.val + 1 ∧ s.Best h k

/-- What the scan has found among the sources it has come past. -/
structure Found (h : Fin p.numHarts) (l : List (Fin p.numSources))
    (best : ℕ × BitVec p.priorityWidth) : Prop where
  above : s.thresholdQ h ≤ best.2
  covers : ∀ j ∈ l, s.Eligible h j → s.priorityQ j ≤ best.2
  source : best = (0, s.thresholdQ h) ∨ ∃ k, best = (k.val + 1, s.priorityQ k) ∧ k ∈ l ∧
    s.Eligible h k ∧ ∀ j ∈ l, s.Eligible h j → s.priorityQ j = s.priorityQ k → k ≤ j

variable {s i} {h : Fin p.numHarts}

theorem Found.next {l : List (Fin p.numSources)} {best : ℕ × BitVec p.priorityWidth}
    {a : Fin p.numSources} (hfnd : s.Found h l best) (hlast : ∀ k ∈ l, k < a) :
    s.Found h (l ++ [a]) (s.selectStep h best a) := by
  rw [selectStep]
  by_cases htake : s.pendingQ a && s.enableQ h a && decide (best.2 < s.priorityQ a)
  · rw [if_pos htake]
    simp only [Bool.and_eq_true, decide_eq_true_eq] at htake
    obtain ⟨⟨hpend, henabled⟩, hlt⟩ := htake
    have ha : s.Eligible h a := ⟨hpend, henabled, Nat.lt_of_le_of_lt hfnd.above hlt⟩
    have hless : ∀ j ∈ l, s.Eligible h j → s.priorityQ j < s.priorityQ a := fun j hj he =>
      Nat.lt_of_le_of_lt (hfnd.covers j hj he) hlt
    refine ⟨BitVec.le_of_lt ha.above, fun j hj he => ?_, .inr ⟨a, rfl, by simp, ha, ?_⟩⟩
    · rcases mem_append.1 hj with hj | hj
      · exact BitVec.le_of_lt (hless j hj he)
      · exact mem_singleton.1 hj ▸ BitVec.le_refl _
    · intro j hj he heq
      rcases mem_append.1 hj with hj | hj
      · exact absurd (heq ▸ hless j hj he) (BitVec.lt_irrefl _)
      · exact (mem_singleton.1 hj).ge
  rw [if_neg htake]
  refine ⟨hfnd.above, fun j hj he => ?_, ?_⟩
  · rcases mem_append.1 hj with hj | hj
    · exact hfnd.covers j hj he
    · obtain rfl := mem_singleton.1 hj
      refine BitVec.not_lt.1 fun hlt => htake ?_
      simp [he.pending, he.enabled, hlt]
  · rcases hfnd.source with hnone | ⟨k, hbest, hmem, hk, hlow⟩
    · exact .inl hnone
    · refine .inr ⟨k, hbest, List.mem_append_left _ hmem, hk, fun j hj he heq => ?_⟩
      rcases mem_append.1 hj with hj | hj
      · exact hlow j hj he heq
      · exact (mem_singleton.1 hj ▸ hlast k hmem).le

theorem found_scan {l : List (Fin p.numSources)} (hsorted : l.Pairwise (· < ·)) :
    s.Found h l (l.foldl (s.selectStep h) (0, s.thresholdQ h)) := by
  induction l using List.reverseRecOn with
  | nil => exact ⟨BitVec.le_refl _, fun j hj => absurd hj List.not_mem_nil, .inl rfl⟩
  | append_singleton l a ih =>
    obtain ⟨hl, -, hlast⟩ := List.pairwise_append.1 hsorted
    rw [List.foldl_append, List.foldl_cons, List.foldl_nil]
    exact (ih hl).next fun k hk => hlast k hk a List.mem_cons_self

theorem selects_interrupt : s.Selects h (s.selectInterrupt h) := by
  have hfnd := found_scan (s := s) (h := h) (List.pairwise_lt_finRange p.numSources)
  rcases hfnd.source with hnone | ⟨k, hbest, -, hk, hlow⟩
  · refine .inl ⟨by rw [selectInterrupt, hnone], fun j hj => ?_⟩
    have hle := hfnd.covers j (mem_finRange j) hj
    rw [hnone] at hle
    exact BitVec.not_le.2 hj.above hle
  · refine .inr ⟨k, by rw [selectInterrupt, hbest], hk, fun j hj => ?_, fun j hj =>
      hlow j (mem_finRange j) hj⟩
    have hle := hfnd.covers j (mem_finRange j) hj
    rwa [hbest] at hle

/-! ### One cycle -/

theorem claims_unique {h' : Fin p.numHarts} (hc : i.claims h) (hc' : i.claims h') : h = h' := by
  simp only [PlicInput.claims, PlicInput.atWord, claimOffset, Bool.and_eq_true, beq_iff_eq]
    at hc hc'
  exact Fin.ext (by omega)

theorem claimed_iff {k : Fin p.numSources} :
    s.claimed i k ↔ ∃ h : Fin p.numHarts, i.claims h ∧ s.selectInterrupt h = k + 1 := by
  simp [claimed]

theorem eligible_of_select {k : Fin p.numSources} (hid : s.selectInterrupt h = k + 1) :
    s.Eligible h k := by
  rcases s.selects_interrupt (h := h) with ⟨hz, -⟩ | ⟨j, hj, hbest⟩
  · exact absurd (hid.symm.trans hz) (Nat.succ_ne_zero _)
  · obtain rfl : j = k := Fin.ext (Nat.succ.inj (hj.symm.trans hid))
    exact hbest.eligible

/-- Only a pending source is claimed. -/
theorem pending_of_claimed {k : Fin p.numSources} (hc : s.claimed i k) : s.pendingQ k := by
  obtain ⟨h, -, hid⟩ := claimed_iff.1 hc
  exact (eligible_of_select hid).pending

/-- A claim is a read and a completion is a write. -/
theorem not_completed_of_claimed {k : Fin p.numSources} (hc : s.claimed i k) :
    s.completed i k = false := by
  obtain ⟨h, hclaim, -⟩ := claimed_iff.1 hc
  have hread : i.writeAccept = false := by
    rw [PlicInput.claims, PlicInput.readAccept, Bool.and_eq_true, Bool.and_eq_true,
      Bool.not_eq_true'] at hclaim
    rw [PlicInput.writeAccept, hclaim.1.2, Bool.and_false]
  simp [completed, hread]

/-- The gateway forwards a source once until it is completed. -/
theorem step_exclusive (hs : ∀ k, ¬ (s.pendingQ k ∧ s.inServiceQ k)) (k : Fin p.numSources) :
    ¬ ((s.step i).pendingQ k ∧ (s.step i).inServiceQ k) := by
  rintro ⟨hpend, hservice⟩
  simp only [step] at hpend hservice
  cases hc : s.claimed i k with
  | true => simp [hc] at hpend
  | false =>
    rw [hc, if_low] at hpend hservice
    cases hd : s.completed i k with
    | true => simp [hd] at hservice
    | false =>
      rw [hd, if_low] at hservice
      simp only [hservice, Bool.not_true, Bool.and_false, if_low] at hpend
      exact hs k ⟨hpend, hservice⟩

end PlicState

/-! ### The value a claim reads -/

/-- No two registers share a word. -/
structure PlicParams.MapFits (p : PlicParams) : Prop where
  priorities : p.numSources * 4 < 0x2000
  enables : p.numHarts ≤ 1 ∨ p.numSources < 1024
  contexts : 0x2000 + (p.numHarts - 1) * 0x80 + p.numSources / 32 * 4 < 0x200000

theorem foldl_eq_of_last {α β : Type*} {f : β → α → β} {c : β} {a : α} {l : List α} (hmem : a ∈ l)
    (hset : ∀ r, f r a = c) (hkeep : ∀ r, ∀ x ∈ l, x ≠ a → f r x = r) (r : β) :
    l.foldl f r = c := by
  induction l using List.reverseRecOn with
  | nil => cases hmem
  | append_singleton l x ih =>
    rw [List.foldl_append, List.foldl_cons, List.foldl_nil]
    by_cases hx : x = a
    · rw [hx, hset]
    · rw [hkeep _ x (by simp) hx]
      refine ih ?_ fun r y hy => hkeep r y (List.mem_append_left _ hy)
      exact (mem_append.1 hmem).resolve_right fun h => hx (mem_singleton.1 h).symm

namespace PlicState

variable {p : PlicParams} {s : PlicState p} {i : PlicInput p} {h : Fin p.numHarts}

/-- The identifier in the word that a claim reads. -/
def claimValue (s : PlicState p) (i : PlicInput p) : ℕ :=
  ((s.memRdataO i).extractLsb' 32 32).toNat

theorem claimValue_eq (hfit : p.MapFits) (hclaim : i.claims h) :
    s.claimValue i = s.selectInterrupt h := by
  simp only [PlicInput.claims, PlicInput.atWord, claimOffset, Bool.and_eq_true, beq_iff_eq]
    at hclaim
  have hline : i.memAddrI.toNat / 8 = (0x200000 + h * 0x1000) / 8 := by omega
  have henable : ∀ (j : Fin p.numHarts) (k : Fin p.numSources),
      i.atLine (enableOffset j k) = false := by
    intro j k
    have hcontexts := hfit.contexts
    have hk : (k.val + 1) / 32 ≤ p.numSources / 32 := Nat.div_le_div_right k.isLt
    have hj := j.isLt
    rw [PlicInput.atLine, beq_eq_false_iff_ne, hline, enableOffset]
    omega
  have hrow : s.memRdataO i = BitVec.ofNat 32 (s.selectInterrupt h) ++
      (s.thresholdQ h).setWidth 32 := by
    refine foldl_eq_of_last (mem_finRange h) (fun r => ?_) (fun r j _ hj => ?_) _
    · exact if_pos (beq_iff_eq.2 hline)
    · have hoth : i.atLine (thresholdOffset j) = false := by
        rw [PlicInput.atLine, beq_eq_false_iff_ne, hline, thresholdOffset]
        exact fun heq => hj (Fin.ext (by omega))
      simp only [hoth, henable, if_low, List.foldl_fixed]
  have hid : s.selectInterrupt h < 2 ^ 32 := by
    have hlt := p.sources_lt
    rcases s.selects_interrupt (h := h) with ⟨hz, -⟩ | ⟨k, hk, -⟩
    · omega
    · have := k.isLt
      omega
  rw [claimValue, hrow, BitVec.extractLsb'_append_eq_left, BitVec.toNat_ofNat, Nat.mod_eq_of_lt hid]

end PlicState

/-! ### Registers -/

/-- The writable registers: a priority for each source, and for each context the words of its
enable bits, its threshold and its claim register. -/
inductive PlicReg (p : PlicParams) where
  | priority (k : Fin p.numSources)
  | enable (h : Fin p.numHarts) (word : Fin (p.numSources / 32 + 1))
  | threshold (h : Fin p.numHarts)
  | claim (h : Fin p.numHarts)

namespace PlicReg

variable {p : PlicParams}

def offset : PlicReg p → ℕ
  | priority k => priorityOffset k
  | enable h word => 0x2000 + h * 0x80 + word * 4
  | threshold h => thresholdOffset h
  | claim h => claimOffset h

/-- Two states agree on a register; the claim register stores nothing of its own. -/
def Same (s s' : PlicState p) : PlicReg p → Prop
  | priority k => s'.priorityQ k = s.priorityQ k
  | enable h word => ∀ k : Fin p.numSources, (k.val + 1) / 32 = word →
      s'.enableQ h k = s.enableQ h k
  | threshold h => s'.thresholdQ h = s.thresholdQ h
  | claim _ => True

theorem offset_inj (hfit : p.MapFits) {r r' : PlicReg p} (hwrd : r.offset / 4 = r'.offset / 4) :
    r = r' := by
  obtain ⟨hpriorities, henables, hcontexts⟩ := hfit
  rcases r with ⟨k, hk⟩ | ⟨⟨h, hh⟩, ⟨w, hw⟩⟩ | ⟨h, hh⟩ | ⟨h, hh⟩ <;>
    rcases r' with ⟨k', hk'⟩ | ⟨⟨h', hh'⟩, ⟨w', hw'⟩⟩ | ⟨h', hh'⟩ | ⟨h', hh'⟩ <;>
      simp only [offset, priorityOffset, thresholdOffset, claimOffset] at hwrd
  all_goals try (exfalso; omega)
  · obtain rfl : k = k' := by omega
    rfl
  · obtain rfl : h = h' := by omega
    obtain rfl : w = w' := by omega
    rfl
  · obtain rfl : h = h' := by omega
    rfl
  · obtain rfl : h = h' := by omega
    rfl

/-- A cycle whose address is in no word of a register leaves it as it is. -/
theorem same_of_elsewhere {s : PlicState p} {i : PlicInput p} {r : PlicReg p}
    (hno : i.atWord r.offset = false) : r.Same s (s.step i) := by
  cases r with
  | priority k =>
    rw [offset] at hno
    simp only [Same, PlicState.step, hno, Bool.and_false, Bool.false_and, if_low]
  | enable h word =>
    intro k hk
    rw [offset, ← hk] at hno
    simp only [PlicState.step, enableOffset, hno, Bool.and_false, Bool.false_and, if_low]
  | threshold h =>
    rw [offset] at hno
    simp only [Same, PlicState.step, hno, Bool.and_false, Bool.false_and, if_low]
  | claim h => trivial

end PlicReg

/-! ### Runs -/

def plicCircuit (p : PlicParams) : Circuit (PlicState p) (PlicInput p) where
  Init s := s = PlicState.reset
  step := PlicState.step

namespace PlicState

variable {p : PlicParams}
  {env : Past (PlicState p) (PlicInput p) → PlicState p → PlicInput p → Prop}
  (b : Behaviour (plicCircuit p) env) (k : Fin p.numSources)

/-- A claim read of some context returns source `k`. -/
def ClaimedAt (n : ℕ) : Prop :=
  ∃ h : Fin p.numHarts, (b.input n).claims h ∧ (b.state n).claimValue (b.input n) = k + 1

/-- The claim protocol over a run. -/
structure ClaimProtocol (b : Behaviour (plicCircuit p) env) : Prop where
  exclusive : ∀ n k, ¬ ((b.state n).pendingQ k ∧ (b.state n).inServiceQ k)
  claim : ∀ n (h : Fin p.numHarts), (b.input n).claims h →
    (b.state n).Selects h ((b.state n).claimValue (b.input n))
  cleared : ∀ n k, (b.state n).pendingQ k ∧ ¬ (b.state (n + 1)).pendingQ k ↔ ClaimedAt b k n
  /-- Between two claims of a source it is completed. -/
  separated : ∀ m n k, m < n → ClaimedAt b k m → ClaimedAt b k n →
    ∃ t, m < t ∧ t < n ∧ (b.state t).completed (b.input t) k
  /-- A source seen high stays pending until it is claimed. -/
  kept : ∀ m n k, (b.input m).irqSourcesI k → ¬ (b.state m).pendingQ k →
    ¬ (b.state m).inServiceQ k → m < n → (∀ t, m < t → t < n → ¬ ClaimedAt b k t) →
      (b.state n).pendingQ k
  seip : ∀ n (h : Fin p.numHarts) (i : PlicInput p), i.claims h →
    ((b.state n).seipO h ↔ (b.state n).claimValue i ≠ 0)
  apart : ∀ n (r r' : PlicReg p), (b.input n).atWord r.offset → r' ≠ r →
    r'.Same (b.state n) (b.state (n + 1))

variable {b k}

theorem claimedAt_iff (hfit : p.MapFits) {n : ℕ} :
    ClaimedAt b k n ↔ (b.state n).claimed (b.input n) k := by
  rw [claimed_iff]
  constructor
  · rintro ⟨h, hclaim, hid⟩
    exact ⟨h, hclaim, by rwa [claimValue_eq hfit hclaim] at hid⟩
  · rintro ⟨h, hclaim, hid⟩
    exact ⟨h, hclaim, by rwa [claimValue_eq hfit hclaim]⟩

theorem exclusive (n : ℕ) : ∀ k, ¬ ((b.state n).pendingQ k ∧ (b.state n).inServiceQ k) := by
  induction n with
  | zero =>
    rw [b.init]
    exact fun _ h => absurd_low h.1
  | succ n ih =>
    rw [b.next n]
    exact step_exclusive ih

/-- A source that is claimed is in service until it is completed. -/
theorem served {m n : ℕ} (hmn : m < n) (hclaim : (b.state m).claimed (b.input m) k)
    (hno : ∀ t, m < t → t < n → ¬ (b.state t).completed (b.input t) k) :
    (b.state n).inServiceQ k := by
  induction n, hmn using Nat.le_induction with
  | base =>
    rw [b.next m]
    simp only [plicCircuit, step, not_completed_of_claimed hclaim, hclaim, if_low, if_true]
  | succ n hmn ih =>
    have ih := ih fun t ht hn => hno t ht (hn.trans n.lt_succ_self)
    rw [b.next n]
    simp only [plicCircuit, step, ih, if_neg (hno n hmn n.lt_succ_self), ite_self]

theorem pending_kept {m n : ℕ} (hirq : (b.input m).irqSourcesI k)
    (hpend : ¬ (b.state m).pendingQ k) (hservice : ¬ (b.state m).inServiceQ k) (hmn : m < n)
    (hno : ∀ t, m < t → t < n → ¬ (b.state t).claimed (b.input t) k) : (b.state n).pendingQ k := by
  induction n, hmn using Nat.le_induction with
  | base =>
    have hclaim : ¬ (b.state m).claimed (b.input m) k := fun h => hpend (pending_of_claimed h)
    rw [b.next m]
    simp [plicCircuit, step, hclaim, hirq, hpend, hservice]
  | succ n hmn ih =>
    have ih := ih fun t ht hn => hno t ht (hn.trans n.lt_succ_self)
    rw [b.next n]
    simp [plicCircuit, step, hno n hmn n.lt_succ_self, ih]

theorem cleared_iff {n : ℕ} : (b.state n).pendingQ k ∧ ¬ (b.state (n + 1)).pendingQ k ↔
    (b.state n).claimed (b.input n) k := by
  rw [b.next n]
  constructor
  · rintro ⟨hpend, hdown⟩
    by_contra hclaim
    simp [plicCircuit, step, hclaim, hpend] at hdown
  · intro hclaim
    refine ⟨pending_of_claimed hclaim, ?_⟩
    simp [plicCircuit, step, hclaim]

/-- The claim protocol holds over every run of a controller whose registers have words of
their own. -/
theorem claim_protocol (hfit : p.MapFits) (b : Behaviour (plicCircuit p) env) :
    ClaimProtocol b where
  exclusive n := exclusive n
  claim n h hclaim := by
    rw [claimValue_eq hfit hclaim]
    exact selects_interrupt
  cleared n k := cleared_iff.trans (claimedAt_iff hfit).symm
  separated m n k hmn hm hn := by
    rw [claimedAt_iff hfit] at hm hn
    by_contra hnone
    refine exclusive n k ⟨pending_of_claimed hn, served hmn hm fun t ht hlast hdone => ?_⟩
    exact hnone ⟨t, ht, hlast, hdone⟩
  kept m n k hirq hpending hservice hmn hno :=
    pending_kept hirq hpending hservice hmn fun t ht hlast hclaim =>
      hno t ht hlast ((claimedAt_iff hfit).2 hclaim)
  seip n h i hclaim := by
    rw [claimValue_eq hfit hclaim, seipO, bne_iff_ne]
  apart n r r' hat hne := by
    rw [b.next n]
    refine PlicReg.same_of_elsewhere (Bool.eq_false_iff.2 fun hat' => hne ?_)
    rw [PlicInput.atWord, beq_iff_eq] at hat hat'
    exact PlicReg.offset_inj hfit (hat'.symm.trans hat)

/-- The run in which every cycle has the same inputs. -/
def steadyRun (i : PlicInput p) : Behaviour (plicCircuit p) anyEnv :=
  .ofInputs (fun _ => i) rfl fun _ => trivial

def twoSources : PlicParams := ⟨1, 2, 3, of_decide_eq_true rfl⟩

/-- Both sources stay high and the context claims in every cycle. -/
theorem claim_protocol_twoSources : ClaimProtocol (steadyRun
    (p := twoSources) ⟨fun _ => true, true, false, 0x200004, 0, 0⟩) :=
  claim_protocol ⟨by decide, by decide, by decide⟩ _

def sources1024 : PlicParams := ⟨2, 1024, 3, of_decide_eq_true rfl⟩

/-- The enable bit of source 1024 of one context is in the first enable word of the next. -/
theorem enable_words_overlap : ¬ ClaimProtocol (steadyRun
    (p := sources1024) ⟨fun _ => false, true, true, 0x2080, 2, 0xf⟩) := by
  intro h
  have hsame := h.apart 0 (.enable ⟨0, by decide⟩ ⟨32, by decide⟩)
    (.enable ⟨1, by decide⟩ ⟨0, by decide⟩) (by decide) (by simp) ⟨0, by decide⟩ rfl
  exact absurd hsame (by decide)

end PlicState

end OpenRV64
