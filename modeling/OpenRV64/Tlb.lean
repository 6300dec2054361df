/-
The translation caches: a small untagged cache on each side, a tagged cache for
superpages, and the indexed main array with that cache at its side.
-/
import OpenRV64.SnoopFilter
import OpenRV64.PtwReference
import Mathlib.Data.List.Range

namespace OpenRV64

open List (range find?_some)

/-- A captured request for a translation. -/
structure XlateRequest extends PtwRequest where
  asid : BitVec 16
deriving DecidableEq, Repr

structure TlbFlags where
  readable : Bool
  writable : Bool
  executable : Bool
  user : Bool
  accessed : Bool
  dirty : Bool
deriving DecidableEq, Repr

/-- The fields of an entry.  The untagged caches have no use for the mode, the address
space and the global bit: here they carry them along and never read them. -/
structure TlbEntry where
  valid : Bool
  vpn : BitVec 52
  ppn : BitVec 52
  vmMode : BitVec 4
  asid : BitVec 16
  global : Bool
  level : Nat
  flags : TlbFlags

/-- What a fill port carries. -/
structure TlbFill where
  vaddr : BitVec 64
  paddr : BitVec 64
  vmMode : BitVec 4
  asid : BitVec 16
  global : Bool
  level : Nat
  flags : TlbFlags

/-- What a hit gives.  Of an untagged cache only the first two are ports. -/
structure TlbHit where
  paddr : BitVec 64
  pageFault : Bool
  global : Bool
  level : Nat
  flags : TlbFlags
deriving DecidableEq, Repr

def pageOf (addr : BitVec 64) : BitVec 52 := addr.extractLsb' 12 52

def TlbFill.entry (f : TlbFill) : TlbEntry :=
  ⟨true, pageOf f.vaddr, pageOf f.paddr, f.vmMode, f.asid, f.global, f.level, f.flags⟩

section Shared

/-! The three caches repeat these functions word for word. -/

def vpnMatch (entryVpn requestVpn : BitVec 52) (level : Nat) : Bool :=
  match level with
  | 2 => entryVpn.extractLsb' 18 34 == requestVpn.extractLsb' 18 34
  | 1 => entryVpn.extractLsb' 9 43 == requestVpn.extractLsb' 9 43
  | _ => entryVpn == requestVpn

theorem vpnMatch_zero (entryVpn requestVpn : BitVec 52) :
    vpnMatch entryVpn requestVpn 0 = (entryVpn == requestVpn) := rfl

def tlbComposePaddr (ppn : BitVec 52) (vaddr : BitVec 64) (level : Nat) : BitVec 64 :=
  match level with
  | 2 => ppn.extractLsb' 18 34 ++ vaddr.extractLsb' 0 30
  | 1 => ppn.extractLsb' 9 43 ++ vaddr.extractLsb' 0 21
  | _ => ppn ++ vaddr.extractLsb' 0 12

def permissionOk (f : TlbFlags) (access priv : BitVec 2) (sum mxr : Bool) : Bool :=
  let accessAllowed :=
    if access == 2 then f.executable
    else if access == 1 then f.writable
    else if access == 0 then f.readable || (mxr && f.executable)
    else false
  let privilegeAllowed :=
    if priv == 0 then f.user
    else if priv == 1 then !f.user || (access != 2 && sum)
    else false
  accessAllowed && privilegeAllowed && f.accessed && (access != 1 || f.dirty)

end Shared

/-- The answer of an entry to a request. -/
def TlbEntry.answer (e : TlbEntry) (r : XlateRequest) : TlbHit :=
  ⟨tlbComposePaddr e.ppn r.vaddr e.level,
    !permissionOk e.flags r.access r.priv r.sum r.mxr, e.global, e.level, e.flags⟩

/-- The entry answers for the address space of the request. -/
def TlbEntry.ownedBy (e : TlbEntry) (vmMode : BitVec 4) (asid : BitVec 16) : Bool :=
  e.vmMode == vmMode && (e.global || e.asid == asid)

/-- The entry that a fill would duplicate. -/
def TlbEntry.sameFill (e : TlbEntry) (f : TlbFill) : Bool :=
  e.valid && e.level == f.level && vpnMatch e.vpn (pageOf f.vaddr) f.level

structure MicroTlb where
  entry : Nat → TlbEntry
  replaceQ : Nat

namespace MicroTlb

variable (entries : Nat) (t : MicroTlb)

def hits (r : XlateRequest) (n : Nat) : Bool :=
  (t.entry n).valid && vpnMatch (t.entry n).vpn (pageOf r.vaddr) (t.entry n).level

/-- The first entry that matches, while no flush is signalled. -/
def lookup (flush : Bool) (r : Option XlateRequest) : Option TlbHit :=
  match r with
  | none => none
  | some r =>
    if flush then none
    else ((List.range entries).find? (t.hits r)).map fun n => (t.entry n).answer r

/-- The entry of the same page, else an invalid one, else the next in turn. -/
def fillIndex (f : TlbFill) : Nat :=
  match (List.range entries).find? fun n => (t.entry n).sameFill f with
  | some n => n
  | none =>
    ((List.range entries).find? fun n => !(t.entry n).valid).getD t.replaceQ

def step (flush : Bool) (fill : Option TlbFill) : MicroTlb :=
  if flush then
    { entry := fun n => { t.entry n with valid := false }, replaceQ := 0 }
  else
    match fill with
    | none => t
    | some f =>
      let index := t.fillIndex entries f
      { entry := fun n => if n = index then f.entry else t.entry n
        replaceQ := if index = entries - 1 then 0 else index + 1 }

variable {entries : Nat} {t : MicroTlb} {flush : Bool}

theorem lookup_eq_some {r : Option XlateRequest} {hit : TlbHit}
    (h : t.lookup entries flush r = some hit) :
    ∃ q, r = some q ∧ flush = false ∧ ∃ n, t.hits q n ∧ hit = (t.entry n).answer q := by
  cases r with
  | none => simp [lookup] at h
  | some q =>
  cases flush with
  | true => simp [lookup] at h
  | false =>
    simp only [lookup, if_low, Option.map_eq_some_iff] at h
    obtain ⟨n, hfind, rfl⟩ := h
    exact ⟨q, rfl, rfl, n, find?_some hfind, rfl⟩

/-- What holds of every valid entry, and of a fill, holds after the clock edge. -/
theorem step_forall {P : TlbEntry → Prop} {fill : Option TlbFill}
    (h : flush = false → ∀ n, (t.entry n).valid → P (t.entry n))
    (hfill : ∀ f, flush = false → fill = some f → P f.entry) (n : Nat)
    (hval : ((t.step entries flush fill).entry n).valid) :
    P ((t.step entries flush fill).entry n) := by
  unfold step at hval ⊢
  cases flush with
  | true => cases hval
  | false =>
    simp only [if_low] at hval ⊢
    cases fill with
    | none => exact h rfl n hval
    | some f =>
    by_cases hn : n = t.fillIndex entries f
    · simp only [if_pos hn]
      exact hfill f rfl rfl
    · simp only [if_neg hn] at hval ⊢
      exact h rfl n hval

end MicroTlb

/-- `openrv64_bus_tlb`, the tagged cache of superpages. -/
structure TaggedTlb where
  entry : Nat → TlbEntry
  replaceQ : Nat

namespace TaggedTlb

variable (entries : Nat) (t : TaggedTlb)

def hits (r : XlateRequest) (n : Nat) : Bool :=
  (t.entry n).valid && vpnMatch (t.entry n).vpn (pageOf r.vaddr) (t.entry n).level &&
    (t.entry n).ownedBy r.vmMode r.asid

def lookup (tlbi : Bool) (r : Option XlateRequest) : Option TlbHit :=
  match r with
  | none => none
  | some r =>
    if tlbi then none
    else ((List.range entries).find? (t.hits r)).map fun n => (t.entry n).answer r

/-- The entry holds the page of a fill, for its address space or for all. -/
def duplicates (f : TlbFill) (n : Nat) : Bool :=
  (t.entry n).sameFill f && (t.entry n).vmMode == f.vmMode &&
    ((t.entry n).global || f.global || (t.entry n).asid == f.asid)

def fillMatch (f : TlbFill) : Option Nat := (List.range entries).find? (t.duplicates f)

/-- Candidates for eviction, beginning at the replacement pointer. -/
def candidate (n : Nat) : Nat :=
  if t.replaceQ + n ≥ entries then t.replaceQ + n - entries else t.replaceQ + n

/-- The duplicate, else an invalid entry, else one of another address space than the
preferred, else the next in turn. -/
def fillIndex (preferAsid : BitVec 16) (f : TlbFill) : Nat :=
  match t.fillMatch entries f with
  | some n => n
  | none =>
    match (List.range entries).find? fun n => !(t.entry n).valid with
    | some n => n
    | none =>
      (((List.range entries).map (t.candidate entries)).find? fun n =>
        (t.entry n).valid && !(t.entry n).global && (t.entry n).asid != preferAsid).getD
          t.replaceQ

def fillEvictValid (preferAsid : BitVec 16) (tlbi : Bool) (fill : Option TlbFill) : Bool :=
  match fill with
  | none => false
  | some f => !tlbi && (t.entry (t.fillIndex entries preferAsid f)).valid &&
      (t.fillMatch entries f).isNone

def fillEvictPreferred (preferAsid : BitVec 16) (tlbi : Bool) (fill : Option TlbFill) : Bool :=
  match fill with
  | none => false
  | some f =>
    let victim := t.entry (t.fillIndex entries preferAsid f)
    t.fillEvictValid entries preferAsid tlbi fill && (victim.global || victim.asid == preferAsid)

/-- A fill drops every duplicate before it writes its own entry. -/
def step (preferAsid : BitVec 16) (tlbi : Bool) (fill : Option TlbFill) : TaggedTlb :=
  if tlbi then
    { entry := fun n => { t.entry n with valid := false }, replaceQ := 0 }
  else
    match fill with
    | none => t
    | some f =>
      let index := t.fillIndex entries preferAsid f
      { entry := fun n =>
          if n = index then f.entry
          else { t.entry n with valid := (t.entry n).valid && !t.duplicates f n }
        replaceQ := if index = entries - 1 then 0 else index + 1 }

variable {entries : Nat} {t : TaggedTlb} {tlbi : Bool}

theorem lookup_eq_some {r : Option XlateRequest} {hit : TlbHit}
    (h : t.lookup entries tlbi r = some hit) :
    ∃ q, r = some q ∧ ∃ n, t.hits q n ∧ hit = (t.entry n).answer q := by
  cases r with
  | none => simp [lookup] at h
  | some q =>
  cases tlbi with
  | true => simp [lookup] at h
  | false =>
    simp only [lookup, if_low, Option.map_eq_some_iff] at h
    obtain ⟨n, hfind, rfl⟩ := h
    exact ⟨q, rfl, n, find?_some hfind, rfl⟩

/-- What holds of every valid entry, and of a fill, holds after the clock edge. -/
theorem step_forall {P : TlbEntry → Prop} {preferAsid : BitVec 16} {fill : Option TlbFill}
    (h : tlbi = false → ∀ n, (t.entry n).valid → P (t.entry n))
    (hfill : ∀ f, tlbi = false → fill = some f → P f.entry) (n : Nat)
    (hval : ((t.step entries preferAsid tlbi fill).entry n).valid) :
    P ((t.step entries preferAsid tlbi fill).entry n) := by
  unfold step at hval ⊢
  cases tlbi with
  | true => cases hval
  | false =>
    simp only [if_low] at hval ⊢
    cases fill with
    | none => exact h rfl n hval
    | some f =>
    by_cases hn : n = t.fillIndex entries preferAsid f
    · simp only [if_pos hn]
      exact hfill f rfl rfl
    simp only [if_neg hn] at hval ⊢
    rw [Bool.and_eq_true] at hval
    have hkept : ({ t.entry n with
        valid := (t.entry n).valid && !t.duplicates f n } : TlbEntry) = t.entry n := by
      rw [hval.1, hval.2, Bool.and_self]
      cases ht : t.entry n with
      | mk valid =>
        have hv : valid := by
          rw [ht] at hval
          exact hval.1
        rw [hv]
    rw [hkept]
    exact h rfl n hval.1

end TaggedTlb

/-- The sizes with the bounds that the simulation checks enforce. -/
structure TlbParams where
  entries : Nat
  ways : Nat
  superpageEntries : Nat
  microEntries : Nat
  entries_pos : 1 ≤ entries
  ways_pos : 1 ≤ ways
  divisible : entries % ways = 0
  superpage_pos : 1 ≤ superpageEntries
  micro_pos : 1 ≤ microEntries
  ways_pow : ways.isPowerOfTwo
  sets_pow : (entries / ways).isPowerOfTwo

namespace TlbParams

variable (p : TlbParams)

def sets : Nat := p.entries / p.ways

def setIndexWidth : Nat := if p.sets ≤ 1 then 1 else clog2 p.sets

def setOf (vaddr : BitVec 64) : Nat := (vaddr.extractLsb' 12 p.setIndexWidth).toNat

end TlbParams

/-- `openrv64_bus_tlb_l2`: pages of 4 KiB in an indexed array, superpages at its side. -/
structure MainTlb where
  entry : Nat → Nat → TlbEntry
  replaceQ : Nat → Nat
  fillEvictCurrentQ : Bool
  superpage : TaggedTlb

namespace MainTlb

variable (p : TlbParams) (t : MainTlb)

def fill4k (fill : Option TlbFill) : Option TlbFill := fill.filter fun f => f.level == 0

def fillSuperpage (fill : Option TlbFill) : Option TlbFill := fill.filter fun f => f.level != 0

def hits (r : XlateRequest) (way : Nat) : Bool :=
  let e := t.entry way (p.setOf r.vaddr)
  e.valid && e.vpn == pageOf r.vaddr && e.ownedBy r.vmMode r.asid

/-- The answer of an entry of the array, whose level is not stored. -/
def answer4k (e : TlbEntry) (r : XlateRequest) : TlbHit :=
  ⟨e.ppn ++ r.vaddr.extractLsb' 0 12,
    !permissionOk e.flags r.access r.priv r.sum r.mxr, e.global, 0, e.flags⟩

/-- The array gives no answer while a fill reads it; the superpages do. -/
def lookup (tlbi : Bool) (fill : Option TlbFill) (r : Option XlateRequest) : Option TlbHit :=
  match r with
  | none => none
  | some q =>
    if tlbi || (fill4k fill).isSome then t.superpage.lookup p.superpageEntries tlbi r
    else
      match (List.range p.ways).find? (t.hits p q) with
      | some way => some (answer4k (t.entry way (p.setOf q.vaddr)) q)
      | none => t.superpage.lookup p.superpageEntries tlbi r

def candidate (set n : Nat) : Nat :=
  if t.replaceQ set + n ≥ p.ways then t.replaceQ set + n - p.ways else t.replaceQ set + n

/-- An invalid way, else one of an inactive address space, else the next in turn. -/
def fillWay (currentAsid : BitVec 16) (set : Nat) : Nat :=
  match (List.range p.ways).find? fun way => !(t.entry way set).valid with
  | some way => way
  | none =>
    (((List.range p.ways).map (t.candidate p set)).find? fun way =>
      (t.entry way set).valid && !(t.entry way set).global &&
        (t.entry way set).asid != currentAsid).getD (t.replaceQ set)

def fillVictimCurrent (currentAsid : BitVec 16) (f : TlbFill) : Bool :=
  let set := p.setOf f.vaddr
  let victim := t.entry (t.fillWay p currentAsid set) set
  victim.valid && (victim.global || victim.asid == currentAsid)

def step (currentAsid : BitVec 16) (tlbi : Bool) (fill : Option TlbFill) : MainTlb :=
  let superpage := t.superpage.step p.superpageEntries currentAsid tlbi (fillSuperpage fill)
  if tlbi then
    { entry := fun way set => { t.entry way set with valid := false }
      replaceQ := fun _ => 0
      fillEvictCurrentQ := false
      superpage := superpage }
  else
    match fill4k fill with
    | some f =>
      let set := p.setOf f.vaddr
      let fillWay := t.fillWay p currentAsid set
      { entry := fun way n =>
          if way = fillWay ∧ n = set ∧ set < p.sets then f.entry else t.entry way n
        replaceQ := fun n =>
          if n = set then (if fillWay = p.ways - 1 then 0 else fillWay + 1)
          else t.replaceQ n
        fillEvictCurrentQ := t.fillVictimCurrent p currentAsid f
        superpage := superpage }
    | none =>
      { t with
        fillEvictCurrentQ :=
          t.superpage.fillEvictPreferred p.superpageEntries currentAsid tlbi (fillSuperpage fill)
        superpage := superpage }

variable {p : TlbParams} {t : MainTlb} {tlbi : Bool}

/-- A hit comes from the array or from the superpages. -/
theorem lookup_eq_some {fill : Option TlbFill} {r : Option XlateRequest} {hit : TlbHit}
    (h : t.lookup p tlbi fill r = some hit) :
    ∃ q, r = some q ∧ ((∃ way, t.hits p q way ∧ hit = answer4k (t.entry way (p.setOf q.vaddr)) q) ∨
        ∃ n, t.superpage.hits q n ∧ hit = (t.superpage.entry n).answer q) := by
  cases r with
  | none => simp [lookup] at h
  | some q =>
    have hside : t.superpage.lookup p.superpageEntries tlbi (some q) = some hit →
        ∃ n, t.superpage.hits q n ∧ hit = (t.superpage.entry n).answer q := by
      intro hs
      obtain ⟨q', hq, n, hn, hhit⟩ := TaggedTlb.lookup_eq_some hs
      obtain rfl : q = q' := Option.some.inj hq
      exact ⟨n, hn, hhit⟩
    refine ⟨q, rfl, ?_⟩
    simp only [lookup] at h
    split at h
    · exact .inr (hside h)
    · split at h
      · rename_i way hfind
        exact .inl ⟨way, find?_some hfind, (Option.some.inj h).symm⟩
      · exact .inr (hside h)

/-- What holds of every valid entry of the array, and of a fill of 4 KiB, holds after the
clock edge. -/
theorem step_forall {P : TlbEntry → Prop} {currentAsid : BitVec 16} {fill : Option TlbFill}
    (h : tlbi = false → ∀ way set, (t.entry way set).valid → P (t.entry way set))
    (hfill : ∀ f, tlbi = false → fill = some f → f.level = 0 → P f.entry) (way set : Nat)
    (hval : ((t.step p currentAsid tlbi fill).entry way set).valid) :
    P ((t.step p currentAsid tlbi fill).entry way set) := by
  unfold step at hval ⊢
  cases tlbi with
  | true => cases hval
  | false =>
    simp only [if_low] at hval ⊢
    cases h4k : fill4k fill with
    | none =>
      simp only [h4k] at hval ⊢
      exact h rfl way set hval
    | some f =>
      simp only [h4k] at hval ⊢
      split
      · obtain ⟨hf, hlvl⟩ := Option.filter_eq_some_iff.mp h4k
        exact hfill f rfl hf (beq_iff_eq.mp hlvl)
      · rename_i hoth
        rw [if_neg hoth] at hval
        exact h rfl way set hval

theorem step_superpage (currentAsid : BitVec 16) (fill : Option TlbFill) :
    (t.step p currentAsid tlbi fill).superpage =
      t.superpage.step p.superpageEntries currentAsid tlbi (fillSuperpage fill) := by
  unfold step
  cases tlbi with
  | true => rfl
  | false =>
    cases fill4k fill <;> rfl

end MainTlb

end OpenRV64
