/-
Sv39 address translation: page-table entries, the permission of a leaf, and the
walk through three levels of tables.

Nothing here names a particular circuit.  The walk takes what each access to a table
delivers from a function of the level and the address.
-/
import Mathlib.Algebra.Group.Nat.Defs

namespace Sv39

abbrev Pte := BitVec 64
abbrev Addr := BitVec 64

inductive Access where
  | read
  | write
  | exec
deriving DecidableEq, Repr

inductive Privilege where
  | user
  | supervisor
  | machine
deriving DecidableEq, Repr

/-- What a leaf is checked against.  An access or a privilege without a meaning is
`none`, and no leaf permits it. -/
structure Context where
  access : Option Access
  priv : Option Privilege
  sum : Bool
  mxr : Bool
deriving DecidableEq, Repr

namespace Pte

variable (pte : Pte)

def v : Bool := pte.getLsbD 0
def r : Bool := pte.getLsbD 1
def w : Bool := pte.getLsbD 2
def x : Bool := pte.getLsbD 3
def u : Bool := pte.getLsbD 4
def g : Bool := pte.getLsbD 5
def a : Bool := pte.getLsbD 6
def d : Bool := pte.getLsbD 7
def ppn : BitVec 44 := pte.extractLsb' 10 44
def reserved : BitVec 10 := pte.extractLsb' 54 10

/-- An encoding that no table may hold. -/
def malformed : Bool := !v pte || (!r pte && w pte) || reserved pte != 0

def leaf : Bool := r pte || x pte

/-- A pointer to a table has no use for these bits. -/
def pointerReserved : Bool := u pte || a pte || d pte

/-- The page number of a leaf is a multiple of the pages that it covers. -/
def aligned (level : ℕ) : Bool := (ppn pte).toNat % 2 ^ (9 * level) == 0

end Pte

namespace Context

variable (c : Context)

/-- The kind of access is permitted. -/
def permitsAccess (r w x : Bool) : Bool :=
  match c.access with
  | some .read => r || (c.mxr && x)
  | some .write => w
  | some .exec => x
  | none => false

/-- The privilege may use the page. -/
def permitsPrivilege (u : Bool) : Bool :=
  match c.priv with
  | some .user => u
  | some .supervisor => !u || (c.access != some .exec && c.sum)
  | _ => false

/-- The page has been marked as it has to be before the access. -/
def permitsMarks (a d : Bool) : Bool := a && (c.access != some .write || d)

def permits (r w x u a d : Bool) : Bool :=
  c.permitsAccess r w x && c.permitsPrivilege u && c.permitsMarks a d

def permitsPte (pte : Pte) : Bool :=
  c.permits (Pte.r pte) (Pte.w pte) (Pte.x pte) (Pte.u pte) (Pte.a pte) (Pte.d pte)

end Context

/-- The index into the table of a level. -/
def vpn (va : Addr) (level : ℕ) : BitVec 9 := va.extractLsb' (12 + 9 * level) 9

def pteAddr (base va : Addr) (level : ℕ) : Addr := base + ((vpn va level).setWidth 64 <<< 3)

/-- The address of a table. -/
def tableBase (ppn : BitVec 44) : Addr := ppn.setWidth 64 <<< 12

/-- The bits of an address that a page of the level leaves alone. -/
def offsetBits (level : ℕ) : ℕ := 12 + 9 * level

/-- The address in the page that a leaf of the level names. -/
def pageAddr (ppn : BitVec 44) (va : Addr) (level : ℕ) : Addr :=
  ((ppn.setWidth 64 >>> (9 * level)) <<< offsetBits level) |||
    (va &&& ((1#64 <<< offsetBits level) - 1))

/-- The upper bits repeat bit 38. -/
def canonical (va : Addr) : Bool := (va.extractLsb' 0 39).signExtend 64 == va

inductive Outcome where
  | pageFault
  | accessFault
  | page (level : ℕ) (pte : Pte) (global : Bool)
deriving DecidableEq, Repr

/-- The walk from the table at `base`.  `read` gives the entry at an address, or
nothing where the access to it faults. -/
def walkFrom (read : ℕ → Addr → Option Pte) (c : Context) (va : Addr) :
    ℕ → Addr → Bool → Outcome
  | level, base, global =>
    match read level (pteAddr base va level) with
    | none => .accessFault
    | some pte =>
      if Pte.malformed pte then .pageFault
      else if Pte.leaf pte then
        if Pte.aligned pte level && c.permitsPte pte then
          .page level pte (global || Pte.g pte)
        else .pageFault
      else
        match level with
        | 0 => .pageFault
        | level + 1 =>
          if Pte.pointerReserved pte then .pageFault
          else walkFrom read c va level (tableBase (Pte.ppn pte)) (global || Pte.g pte)

section WalkFrom

variable {read : ℕ → Addr → Option Pte} {c : Context} {va base : Addr} {level : ℕ}
  {global : Bool} {pte : Pte}

attribute [local simp] walkFrom

theorem walkFrom_none (hread : read level (pteAddr base va level) = none) :
    walkFrom read c va level base global = .accessFault := by
  simp [hread]

theorem walkFrom_malformed (hread : read level (pteAddr base va level) = some pte)
    (hpte : Pte.malformed pte) : walkFrom read c va level base global = .pageFault := by
  simp [hread, hpte]

theorem walkFrom_leaf (hread : read level (pteAddr base va level) = some pte)
    (hpte : Pte.malformed pte = false) (hleaf : Pte.leaf pte) :
    walkFrom read c va level base global =
      if Pte.aligned pte level && c.permitsPte pte then
        .page level pte (global || Pte.g pte)
      else .pageFault := by
  simp [hread, hpte, hleaf]

theorem walkFrom_last (hread : read 0 (pteAddr base va 0) = some pte)
    (hpte : Pte.malformed pte = false) (hleaf : Pte.leaf pte = false) :
    walkFrom read c va 0 base global = .pageFault := by
  simp [hread, hpte, hleaf]

theorem walkFrom_pointer (hread : read (level + 1) (pteAddr base va (level + 1)) = some pte)
    (hpte : Pte.malformed pte = false) (hleaf : Pte.leaf pte = false) :
    walkFrom read c va (level + 1) base global =
      if Pte.pointerReserved pte then .pageFault
      else walkFrom read c va level (tableBase (Pte.ppn pte)) (global || Pte.g pte) := by
  conv => lhs; unfold walkFrom
  simp only [hread, hpte, hleaf, Bool.false_eq_true, if_false]

end WalkFrom

/-- The translation of an address: machine mode has none, and neither has an address
that is not canonical. -/
def walk (read : ℕ → Addr → Option Pte) (c : Context) (root : BitVec 44) (va : Addr) : Outcome :=
  if c.priv == some .machine || !canonical va then .pageFault
  else walkFrom read c va 2 (tableBase root) false

/-- Two addresses in one page of a level. -/
def SamePage (level : ℕ) (va va' : Addr) : Prop :=
  va >>> offsetBits level = va' >>> offsetBits level

section SamePage

variable {level : ℕ} {va va' : Addr}

theorem SamePage.refl (level : ℕ) (va : Addr) : SamePage level va va := rfl

theorem SamePage.symm (h : SamePage level va va') : SamePage level va' va := Eq.symm h

theorem SamePage.trans {va'' : Addr} (h : SamePage level va va')
    (h' : SamePage level va' va'') : SamePage level va va'' := Eq.trans h h'

theorem samePage_iff :
    SamePage level va va' ↔ ∀ k, offsetBits level ≤ k → va.getLsbD k = va'.getLsbD k := by
  constructor
  · intro h k hk
    have hbit := congrArg (fun x => x.getLsbD (k - offsetBits level)) h
    simp only [BitVec.getLsbD_ushiftRight] at hbit
    rwa [Nat.add_sub_cancel' hk] at hbit
  · intro h
    apply BitVec.eq_of_getLsbD_eq
    intro k _
    rw [BitVec.getLsbD_ushiftRight, BitVec.getLsbD_ushiftRight]
    exact h _ (Nat.le_add_right _ _)

/-- Addresses in one page use the same entry of every table above it. -/
theorem SamePage.vpn_eq {l : ℕ} (h : SamePage level va va') (hl : level ≤ l) :
    vpn va l = vpn va' l := by
  apply BitVec.eq_of_getLsbD_eq
  intro k _
  rw [vpn, vpn, BitVec.getLsbD_extractLsb', BitVec.getLsbD_extractLsb',
    samePage_iff.mp h _ (by rw [offsetBits]; omega)]

theorem SamePage.pteAddr_eq {l : ℕ} (base : Addr) (h : SamePage level va va')
    (hl : level ≤ l) : pteAddr base va l = pteAddr base va' l := by
  rw [pteAddr, pteAddr, h.vpn_eq hl]

/-- The 39 bits that are translated, sign extended. -/
theorem getLsbD_signExtend (k : ℕ) (hk : k < 64) : ((va.extractLsb' 0 39).signExtend 64).getLsbD k =
      if k < 39 then va.getLsbD k else va.getLsbD 38 := by
  simp only [BitVec.getLsbD_signExtend, BitVec.msb_eq_getLsbD_last,
    BitVec.getLsbD_extractLsb', hk, Nat.zero_add, decide_true, Bool.true_and]
  by_cases hlow : k < 39
  · rw [if_pos hlow, if_pos hlow, decide_eq_true hlow, Bool.true_and]
  · rw [if_neg hlow, if_neg hlow]
    rfl

theorem canonical_iff : canonical va ↔ ∀ k, 39 ≤ k → k < 64 → va.getLsbD k = va.getLsbD 38 := by
  rw [canonical, beq_iff_eq]
  constructor
  · intro h k hlow hhigh
    calc va.getLsbD k = ((va.extractLsb' 0 39).signExtend 64).getLsbD k := by rw [h]
      _ = va.getLsbD 38 := by rw [getLsbD_signExtend k hhigh, if_neg (Nat.not_lt.mpr hlow)]
  · intro h
    apply BitVec.eq_of_getLsbD_eq
    intro k hk
    rw [getLsbD_signExtend k hk]
    split
    · rfl
    · rename_i hlow
      exact (h k (Nat.le_of_not_lt hlow) hk).symm

theorem SamePage.canonical_eq (h : SamePage level va va') (hl : level ≤ 2) :
    canonical va = canonical va' := by
  have hbits : ∀ k, 38 ≤ k → va.getLsbD k = va'.getLsbD k := fun k hk =>
    samePage_iff.mp h k (by rw [offsetBits]; omega)
  rw [Bool.eq_iff_iff, canonical_iff, canonical_iff, hbits 38 Nat.le.refl]
  constructor
  · intro hc k hlow hhigh
    rw [← hbits k (by omega)]
    exact hc k hlow hhigh
  · intro hc k hlow hhigh
    rw [hbits k (by omega)]
    exact hc k hlow hhigh

end SamePage

/-- What a leaf that a walk has reached gives for another context: the page, or a fault. -/
def leafOutcome (c : Context) (level : ℕ) (pte : Pte) (global : Bool) : Outcome :=
  if c.permitsPte pte then .page level pte global else .pageFault

section

variable {read : ℕ → Addr → Option Pte} {c c' : Context} {va va' base : Addr} {l level : ℕ}
  {global global' : Bool} {pte : Pte}
  (hwalk : walkFrom read c va l base global = .page level pte global')
include hwalk

/-- The entry that a walk to a leaf reads first: the leaf, or a pointer to the rest. -/
theorem walkFrom_page : ∃ e, read l (pteAddr base va l) = some e ∧ Pte.malformed e = false ∧
      ((Pte.leaf e ∧ Pte.aligned e l ∧ c.permitsPte e ∧
          level = l ∧ pte = e ∧ global' = (global || Pte.g e)) ∨
        (Pte.leaf e = false ∧ Pte.pointerReserved e = false ∧ ∃ l', l = l' + 1 ∧
          walkFrom read c va l' (tableBase (Pte.ppn e)) (global || Pte.g e) =
            .page level pte global')) := by
  cases hread : read l (pteAddr base va l) with
  | none =>
    rw [walkFrom_none hread] at hwalk
    simp at hwalk
  | some e =>
  cases hgood : Pte.malformed e with
  | true =>
    rw [walkFrom_malformed hread hgood] at hwalk
    simp at hwalk
  | false =>
    refine ⟨e, rfl, hgood, ?_⟩
    cases hleaf : Pte.leaf e with
    | true =>
      rw [walkFrom_leaf hread hgood hleaf] at hwalk
      split at hwalk
      · rename_i hok
        rw [Bool.and_eq_true] at hok
        obtain ⟨rfl, rfl, rfl⟩ := hwalk
        exact .inl ⟨rfl, hok.1, hok.2, rfl, rfl, rfl⟩
      · simp at hwalk
    | false =>
    cases l with
    | zero =>
      rw [walkFrom_last hread hgood hleaf] at hwalk
      simp at hwalk
    | succ l =>
      rw [walkFrom_pointer hread hgood hleaf] at hwalk
      split at hwalk
      · simp at hwalk
      · rename_i hresv
        exact .inr ⟨rfl, by simpa using hresv, l, rfl, hwalk⟩

theorem level_le_of_walkFrom : level ≤ l := by
  induction l generalizing base global with
  | zero =>
    obtain ⟨e, -, -, ⟨-, -, -, rfl, -⟩ | ⟨-, -, l', hl, -⟩⟩ := walkFrom_page hwalk
    · exact Nat.le.refl
    · exact absurd hl (by omega)
  | succ l ih =>
    obtain ⟨e, -, -, ⟨-, -, -, rfl, -⟩ | ⟨-, -, l', hl, hrest⟩⟩ := walkFrom_page hwalk
    · exact Nat.le.refl
    · obtain rfl : l = l' := Nat.succ.inj hl
      exact Nat.le_succ_of_le (ih hrest)

/-- A walk that ends at a leaf goes to the same leaf for every address of its page, and
the leaf decides. -/
theorem walkFrom_samePage (hpage : SamePage level va va') :
    walkFrom read c' va' l base global = leafOutcome c' level pte global' := by
  induction l generalizing base global with
  | zero =>
    have haddr := hpage.pteAddr_eq base (level_le_of_walkFrom hwalk)
    obtain ⟨e, hread, hgood, ⟨hleaf, halign, -, rfl, rfl, rfl⟩ | ⟨-, -, l', hl, -⟩⟩ :=
      walkFrom_page hwalk
    · rw [haddr] at hread
      rw [walkFrom_leaf hread hgood hleaf, halign, Bool.true_and, leafOutcome]
    · exact absurd hl (by omega)
  | succ l ih =>
    have haddr := hpage.pteAddr_eq base (level_le_of_walkFrom hwalk)
    obtain ⟨e, hread, hgood, ⟨hleaf, halign, -, rfl, rfl, rfl⟩ |
      ⟨hleaf, hresv, l', hl, hrest⟩⟩ := walkFrom_page hwalk
    · rw [haddr] at hread
      rw [walkFrom_leaf hread hgood hleaf, halign, Bool.true_and, leafOutcome]
    · obtain rfl : l = l' := Nat.succ.inj hl
      rw [haddr] at hread
      rw [walkFrom_pointer hread hgood hleaf, hresv, if_neg (by decide)]
      exact ih hrest

end

section

variable {read : ℕ → Addr → Option Pte} {c c' : Context} {root : BitVec 44} {va va' : Addr}
  {level : ℕ} {global : Bool} {pte : Pte} (hwalk : walk read c root va = .page level pte global)
include hwalk

/-- The walk of an address in the page of a leaf that another walk has found. -/
theorem walk_samePage (hpage : SamePage level va va') :
    walk read c' root va' = leafOutcome c' level pte global := by
  unfold walk at hwalk ⊢
  split at hwalk
  · simp at hwalk
  rename_i hok
  simp only [Bool.or_eq_true, Bool.not_eq_true', not_or] at hok
  have hlvl : level ≤ 2 := level_le_of_walkFrom hwalk
  have hcanonical : canonical va' := (hpage.canonical_eq hlvl) ▸ (Bool.not_eq_false _ ▸ hok.2)
  split
  · rename_i hbad
    simp only [hcanonical, Bool.not_true, Bool.or_false, beq_iff_eq] at hbad
    have hdenied : c'.permitsPte pte = false := by
      rw [Context.permitsPte, Context.permits, Context.permitsPrivilege, hbad,
        Bool.and_false, Bool.false_and]
    rw [leafOutcome, hdenied, if_neg (by decide)]
  · exact walkFrom_samePage hwalk hpage

theorem level_le_of_walk : level ≤ 2 ∧ canonical va := by
  unfold walk at hwalk
  split at hwalk
  · simp at hwalk
  · rename_i hok
    simp only [Bool.or_eq_true, Bool.not_eq_true', not_or] at hok
    exact ⟨level_le_of_walkFrom hwalk, Bool.not_eq_false _ ▸ hok.2⟩

end

end Sv39
