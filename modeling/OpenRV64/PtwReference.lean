/-
The page-table walker against the architecture: the translation that a request asks
for, and the entry logic of the walker as one level of it.
-/
import OpenRV64.PtwChannel

namespace OpenRV64

open Sv39
open BitVec (eq_of_getLsbD_eq getLsbD_append getLsbD_shiftLeft getLsbD_setWidth getLsbD_extractLsb'
  getLsbD_ushiftRight ofNat)
open Pte (ppn g)

/-- The encoding of `req_access_i`. -/
def accessOf (access : BitVec 2) : Option Access :=
  if access = 0 then some .read
  else if access = 1 then some .write
  else if access = 2 then some .exec
  else none

/-- The encoding of a privilege. -/
def privOf (priv : BitVec 2) : Option Privilege :=
  if priv = 0 then some .user
  else if priv = 1 then some .supervisor
  else if priv = 3 then some .machine
  else none

section Encoding

theorem level_cases {level : ℕ} (h : level ≤ 2) : level = 0 ∨ level = 1 ∨ level = 2 := by omega

theorem extractLsb'_eq_zero_iff {n : ℕ} (x : BitVec n) (k : ℕ) :
    x.extractLsb' 0 k = 0 ↔ x.toNat % 2 ^ k = 0 := by
  rw [← BitVec.toNat_inj]
  simp

theorem superpageAligned_eq {level : ℕ} (hlvl : level ≤ 2) (pte : BitVec 64) :
    superpageAligned level (ppn pte) = Pte.aligned pte level := by
  rw [Bool.eq_iff_iff]
  rcases level_cases hlvl with rfl | rfl | rfl
  · simp [superpageAligned, Pte.aligned, Nat.mod_one]
  · simpa [superpageAligned, Pte.aligned] using
      extractLsb'_eq_zero_iff (ppn pte) 9
  · simpa [superpageAligned, Pte.aligned] using
      extractLsb'_eq_zero_iff (ppn pte) 18

theorem getLsbD_lowMask {k n : ℕ} (hk : k < 64) (hn : n < 64) :
    ((1#64 <<< n) - 1).getLsbD k = decide (k < n) := by
  have hmask : (1#64 <<< n) - 1 = ofNat 64 (2 ^ n - 1) := by
    have hlt : 2 ^ n < 2 ^ 64 := Nat.pow_lt_pow_right (by omega) hn
    have hpos : 0 < 2 ^ n := Nat.two_pow_pos n
    apply BitVec.eq_of_toNat_eq
    simp [BitVec.toNat_sub, Nat.shiftLeft_eq]
    omega
  rw [hmask, BitVec.getLsbD_ofNat, Nat.testBit_two_pow_sub_one]
  simp [hk]

theorem composePaddr_eq {level : ℕ} (hlvl : level ≤ 2) (ppn : BitVec 44)
    (vaddr : BitVec 64) : composePaddr ppn vaddr level = pageAddr ppn vaddr level := by
  apply eq_of_getLsbD_eq
  intro k hk
  have hoffset : offsetBits level < 64 := by
    rw [offsetBits]
    omega
  rw [pageAddr, BitVec.getLsbD_or, BitVec.getLsbD_and, getLsbD_lowMask hk hoffset]
  rcases level_cases hlvl with rfl | rfl | rfl
  · simp only [composePaddr, offsetBits, getLsbD_append, getLsbD_shiftLeft, getLsbD_ushiftRight,
      getLsbD_setWidth, getLsbD_extractLsb']
    by_cases h : k < 12
    · simp [h]
    · simp [h, hk]
      grind
  · simp only [composePaddr, offsetBits, getLsbD_append, getLsbD_shiftLeft, getLsbD_ushiftRight,
      getLsbD_setWidth, getLsbD_extractLsb']
    by_cases h : k < 21
    · simp [h]
    · simp [h, hk]
      grind
  simp only [composePaddr, offsetBits, getLsbD_append, getLsbD_shiftLeft, getLsbD_ushiftRight,
    getLsbD_setWidth, getLsbD_extractLsb']
  by_cases h : k < 30
  · simp [h]
  · simp [h, hk]
    grind

theorem ppnBase_eq (ppn : BitVec 44) : ppnBase ppn = tableBase ppn := by
  apply eq_of_getLsbD_eq
  intro k hk
  simp only [ppnBase, tableBase, getLsbD_append, getLsbD_shiftLeft, getLsbD_setWidth]
  by_cases h : k < 12
  · simp [h]
  · simp [h, hk]
    grind

/-- Both forms say that the upper bits repeat bit 38. -/
theorem canonicalSv39_eq (vaddr : BitVec 64) : canonicalSv39 vaddr = canonical vaddr := by
  have hsrc : canonicalSv39 vaddr ↔ ∀ k, 39 ≤ k → k < 64 → vaddr.getLsbD k = vaddr.getLsbD 38 := by
    rw [canonicalSv39, beq_iff_eq]
    constructor
    · intro h k hlow hhigh
      have hbit := congrArg (fun x => x.getLsbD (k - 39)) h
      grind
    · intro h
      apply eq_of_getLsbD_eq
      intro k hk
      have hbit := h (k + 39) (by omega) (by omega)
      grind
  rw [Bool.eq_iff_iff, hsrc, canonical_iff]

theorem walkPteAddr_eq (w : PtwWalker) (hlvl : w.level ≤ 2) :
    w.walkPteAddr = pteAddr w.tableBase w.vaddr w.level := by
  have hoffset : (0#52 ++ w.walkVpn ++ 0#3 : BitVec 64) =
      (vpn w.vaddr w.level).setWidth 64 <<< 3 := by
    apply eq_of_getLsbD_eq
    intro k hk
    rcases level_cases hlvl with h | h | h
    all_goals
      simp only [PtwWalker.walkVpn, vpn, h]
      grind
  rw [PtwWalker.walkPteAddr, hoffset, pteAddr]

/-- The address of an entry of a table. -/
def entryAddr (ppn : BitVec 44) (vpn : BitVec 9) : BitVec 64 := 0#8 ++ ppn ++ vpn ++ 0#3

theorem ppnBase_add (ppn : BitVec 44) (vpn : BitVec 9) :
    ppnBase ppn + (0#52 ++ vpn ++ 0#3) = entryAddr ppn vpn := by
  rw [entryAddr, BitVec.add_eq_or_of_and_eq_zero]
  · apply eq_of_getLsbD_eq
    intro k hk
    simp only [ppnBase]
    grind
  · apply eq_of_getLsbD_eq
    intro k hk
    simp only [ppnBase]
    grind

/-- A tag of the cache determines the address of an entry. -/
theorem entryAddr_eq_of_tag {ppn ppn' : BitVec 44} {vpn vpn' : BitVec 9}
    (htag : (entryAddr ppn vpn).extractLsb' 3 53 = (entryAddr ppn' vpn').extractLsb' 3 53) :
    entryAddr ppn vpn = entryAddr ppn' vpn' := by
  apply eq_of_getLsbD_eq
  intro k hk
  have hbit := congrArg (fun x => x.getLsbD (k - 3)) htag
  simp only [entryAddr, getLsbD_extractLsb'] at hbit ⊢
  grind

theorem bitVec_two_cases (x : BitVec 2) : x = 0 ∨ x = 1 ∨ x = 2 ∨ x = 3 := by
  revert x
  decide

theorem accessPermission_eq (c : Context) (access : BitVec 2) (r w x : Bool)
    (hacs : c.access = accessOf access) :
    accessPermission access c.mxr r w x = c.permitsAccess r w x := by
  rcases bitVec_two_cases access with rfl | rfl | rfl | rfl <;>
    simp [accessPermission, Context.permitsAccess, hacs, accessOf]

theorem privilegePermission_eq (c : Context) (priv access : BitVec 2) (u : Bool)
    (hacs : c.access = accessOf access) (hpriv : c.priv = privOf priv) :
    privilegePermission priv access c.sum u = c.permitsPrivilege u := by
  rcases bitVec_two_cases access with rfl | rfl | rfl | rfl <;>
    rcases bitVec_two_cases priv with rfl | rfl | rfl | rfl <;>
      rw [Context.permitsPrivilege, hacs, hpriv] <;> rfl

theorem adPermission_eq (c : Context) (access : BitVec 2) (a d : Bool)
    (hacs : c.access = accessOf access) : adPermission access a d = c.permitsMarks a d := by
  rcases bitVec_two_cases access with rfl | rfl | rfl | rfl <;>
    simp [adPermission, Context.permitsMarks, hacs, accessOf]

end Encoding

def PtwResp.ofOutcome (vaddr : BitVec 64) : Outcome → PtwResp
  | .pageFault => .refuse true false false
  | .accessFault => .refuse false true false
  | .page level pte global =>
    .ofLeaf (pageAddr (Pte.ppn pte) vaddr level) level global pte

namespace PtwRequest

variable (q : PtwRequest)

def context : Context := ⟨accessOf q.access, privOf q.priv, q.sum, q.mxr⟩

/-- The response that the architecture asks for, when the accesses to the tables give
`read`: no translation in bare mode, the walk in Sv39, and a fault in every other. -/
def translate (read : ℕ → Addr → Option Pte) : PtwResp :=
  if q.vmMode = 0 then .bare q.vaddr
  else if q.vmMode = 8 then
    .ofOutcome q.vaddr (walk read q.context q.rootPpn q.vaddr)
  else .refuse true false false

end PtwRequest

namespace PtwWalker

variable (w : PtwWalker)

def context : Context := ⟨accessOf w.access, privOf w.priv, w.sum, w.mxr⟩

theorem leafPermission_eq (pte : BitVec 64) : w.leafPermission pte = w.context.permitsPte pte := by
  rw [leafPermission, Context.permitsPte, Context.permits,
    ← accessPermission_eq w.context w.access _ _ _ rfl,
    ← privilegePermission_eq w.context w.priv w.access _ rfl rfl,
    ← adPermission_eq w.context w.access _ _ rfl]
  rfl

theorem takeEntry_walkFrom {read : ℕ → Addr → Option Pte} {pte : BitVec 64}
    (hlvl : w.level ≤ 2) (hread : read w.level w.walkPteAddr = some pte) :
    w.takeEntry pte =
        { w with
          resp := .ofOutcome w.vaddr (walkFrom read w.context w.vaddr w.level w.tableBase w.global)
          phase := .resp } ∨ (w.level ≠ 0 ∧ w.takeEntry pte =
          { w with
            tableBase := ppnBase (ppn pte)
            level := w.level - 1
            global := w.global || g pte
            backend := .pmp } ∧ walkFrom read w.context w.vaddr w.level w.tableBase w.global =
          walkFrom read w.context w.vaddr (w.level - 1)
            (ppnBase (ppn pte)) (w.global || g pte)) := by
  rw [walkPteAddr_eq w hlvl] at hread
  unfold takeEntry
  split
  · rename_i hpte
    left
    rw [walkFrom_malformed hread hpte]
    rfl
  rename_i hpte
  have hgood : Pte.malformed pte = false := Bool.eq_false_of_not_eq_true hpte
  split
  · rename_i hleaf
    left
    rw [walkFrom_leaf hread hgood hleaf, superpageAligned_eq hlvl,
      leafPermission_eq, composePaddr_eq hlvl]
    cases Pte.aligned pte w.level <;> cases w.context.permitsPte pte <;> rfl
  rename_i hpointer
  have hnone : Pte.leaf pte = false := Bool.eq_false_of_not_eq_true hpointer
  by_cases hlast : w.level = 0
  · have hwalk : walkFrom read w.context w.vaddr w.level w.tableBase w.global = .pageFault := by
      rw [hlast] at hread ⊢
      exact walkFrom_last hread hgood hnone
    left
    rw [hwalk, if_pos (by simp [hlast])]
    rfl
  obtain ⟨level, hsucc⟩ := Nat.exists_eq_succ_of_ne_zero hlast
  have hwalk : walkFrom read w.context w.vaddr w.level w.tableBase w.global =
      if pteNonleafReserved pte then .pageFault
      else walkFrom read w.context w.vaddr (w.level - 1)
        (ppnBase (ppn pte)) (w.global || g pte) := by
    rw [hsucc] at hread ⊢
    rw [walkFrom_pointer hread hgood hnone, ppnBase_eq]
    rfl
  rw [hwalk]
  cases hresv : pteNonleafReserved pte with
  | true =>
    left
    rw [if_pos (by simp)]
    rfl
  | false =>
    right
    refine ⟨hlast, ?_, rfl⟩
    rw [if_neg (by simp [hlast])]

end PtwWalker

end OpenRV64
