/-
The small translation caches and the shared one: what hits in a small cache is backed by
an entry of the shared cache, which is the only one of its kind.
-/
import OpenRV64.TlbUnique

namespace OpenRV64

open MtlXlateState MainTlb Sync TaggedTlb TlbEntry
open Bool (and_eq_true)
open Option (some)

/-! ## Entries that answer alike -/

theorem tlbComposePaddr_page (ppn : BitVec 52) (va va' : BitVec 64) (level : ℕ) :
    tlbComposePaddr (pageOf (tlbComposePaddr ppn va level)) va' level =
      tlbComposePaddr ppn va' level := by
  apply BitVec.eq_of_getLsbD_eq
  intro k hk
  unfold tlbComposePaddr pageOf
  split <;> grind

/-- The entry of the shared cache answers every request of the small one's entry alike. -/
structure Backs (e m : TlbEntry) : Prop where
  level : e.level = m.level
  page : vpnMatch e.vpn m.vpn e.level = true
  paddr : ∀ va, tlbComposePaddr e.ppn va e.level = tlbComposePaddr m.ppn va m.level
  flags : e.flags = m.flags
  global : e.global = m.global

theorem Backs.refl (e : TlbEntry) : Backs e e := ⟨rfl, vpnMatch_refl _ _, fun _ => rfl, rfl, rfl⟩

theorem Backs.answer {e m : TlbEntry} (h : Backs e m) (r : XlateRequest) :
    e.answer r = m.answer r := by
  rw [TlbEntry.answer, TlbEntry.answer, h.paddr, h.level, h.flags, h.global]

/-- A refill backs on the entry that gave the hit. -/
theorem backs_refill {e : TlbEntry} {r : XlateRequest}
    (hmat : vpnMatch e.vpn (pageOf r.vaddr) e.level) : Backs e ((e.answer r).fill r).entry :=
  ⟨rfl, hmat, fun va => (tlbComposePaddr_page e.ppn r.vaddr va e.level).symm, rfl, rfl⟩

namespace MainTlb

variable {p : TlbParams} {t : MainTlb} {e : TlbEntry} {vmMode : BitVec 4} {asid : BitVec 16}
  {f : TlbFill}

theorem answer4k_eq {r : XlateRequest} (h : e.level = 0) : answer4k e r = e.answer r := by
  rw [answer4k, TlbEntry.answer, h]
  rfl

/-! ## What a fill evicts -/

/-- No superpage of the space of a fill duplicates it. -/
theorem FillsMiss.not_duplicates {currentAsid : BitVec 16}
    (h : FillsMiss p currentAsid t f) {n : ℕ} (hasid : f.asid = asid)
    (howned : (t.superpage.entry n).ownedBy vmMode asid) : t.superpage.duplicates f n = false := by
  apply Bool.eq_false_of_not_eq_true
  intro hdup
  obtain ⟨q, hq, hqmode, hqasid, hmiss⟩ := h.misses
  have hno := hmiss.2 n
  simp only [duplicates, sameFill, and_eq_true, beq_iff_eq] at hdup
  obtain ⟨⟨⟨⟨hval, hlvl⟩, hmat⟩, hmode⟩, -⟩ := hdup
  simp only [ownedBy, and_eq_true, Bool.or_eq_true, beq_iff_eq] at howned
  have hhit : t.superpage.hits q n := by
    simp only [TaggedTlb.hits, ownedBy, and_eq_true, Bool.or_eq_true,
      beq_iff_eq, hq, hqmode, hqasid]
    refine ⟨⟨hval, hlvl ▸ hmat⟩, hmode, howned.2.imp_right fun ha => ?_⟩
    exact ha.trans hasid.symm
  rw [hhit] at hno
  cases hno

/-- An entry of the current space that a fill evicts is announced. -/
theorem stores_step (hstored : MainStores t e) (howned : e.ownedBy vmMode asid)
    {fill : Option TlbFill}
    (hfill : ∀ f, fill = some f → FillsMiss p asid t f ∧ f.asid = asid)
    (hkept : (t.step p asid false fill).fillEvictCurrentQ = false) :
    MainStores (t.step p asid false fill) e := by
  obtain ⟨hval, ⟨way, set, hent⟩ | ⟨n, hent⟩⟩ := hstored
  · refine ⟨hval, .inl ⟨way, set, ?_⟩⟩
    rcases step_entry p t asid fill way set with
      ⟨f, rfl, hlvl, rfl, rfl, -, -⟩ | ⟨-, hsame⟩
    · exfalso
      have hvic : t.fillVictimCurrent p asid f := by
        simp only [ownedBy, and_eq_true] at howned
        simp only [fillVictimCurrent, hent, hval, howned.2, Bool.and_self]
      simp only [step, fill4k_some hlvl, if_low, hvic] at hkept
      cases hkept
    · exact hsame.trans hent
  refine ⟨hval, .inr ⟨n, ?_⟩⟩
  rw [step_superpage]
  cases fill with
  | none => exact hent
  | some f =>
    obtain ⟨hmiss, hasid⟩ := hfill f rfl
    by_cases hlvl : f.level = 0
    · rw [fillSuperpage_none hlvl]
      exact hent
    have hdup := hmiss.not_duplicates (n := n) hasid (hent ▸ howned)
    rw [fillSuperpage_some hlvl]
    by_cases hn : n = t.superpage.fillIndex p.superpageEntries asid f
    · exfalso
      have hnone : t.superpage.fillMatch p.superpageEntries f = none := by
        cases hmat : t.superpage.fillMatch p.superpageEntries f with
        | none => rfl
        | some k =>
          have hk : n = k := by
            rw [hn, fillIndex, hmat]
          have hkdup : t.superpage.duplicates f k := List.find?_some hmat
          rw [← hk, hdup] at hkdup
          cases hkdup
      simp only [ownedBy, and_eq_true] at howned
      have hevict : t.superpage.fillEvictPreferred p.superpageEntries asid false (some f) := by
        simp only [fillEvictPreferred, fillEvictValid, ← hn,
          hent, hval, hnone, howned.2, Option.isNone_none, Bool.not_false, Bool.and_self]
      simp only [step, fill4k_none hlvl, fillSuperpage_some hlvl, if_low, hevict] at hkept
      cases hkept
    · simp only [TaggedTlb.step, if_low, if_neg hn, hdup, Bool.not_false, Bool.and_true]
      exact hent

theorem stores_fill (hsets : 2 ≤ p.sets) (f : TlbFill) :
    MainStores (t.step p asid false (some f)) f.entry := by
  refine ⟨rfl, ?_⟩
  by_cases hlvl : f.level = 0
  · refine .inl ⟨t.fillWay p asid (p.setOf f.vaddr), p.setOf f.vaddr, ?_⟩
    have hset := setOf_lt hsets f.vaddr
    simp only [step, fill4k_some hlvl, if_low, hset, and_self, if_true]
  · refine .inr ⟨t.superpage.fillIndex p.superpageEntries asid f, ?_⟩
    rw [step_superpage, fillSuperpage_some hlvl]
    simp only [TaggedTlb.step, if_low, if_true]

end MainTlb

/-! ## Runs from reset -/

/-- The translation path from reset, with the replacement pointers that reset clears. -/
def mtlXlateReset (p : TlbParams) : Circuit MtlXlateState MtlXlateInput where
  Init s := s.Init ∧ (∀ set, s.main.replaceQ set = 0) ∧ s.main.superpage.replaceQ = 0
  step := MtlXlateState.step p

namespace MtlXlateState

variable {p : TlbParams} {s : MtlXlateState} {i : MtlXlateInput}
  {past : Past MtlXlateState MtlXlateInput}

/-- The request of a walk stands still at the port that asked, from the lookup that
missed. -/
def Held (p : TlbParams) :
    Past MtlXlateState MtlXlateInput → MtlXlateState → MtlXlateInput → Prop
  | [], _, _ => True
  | (s', i') :: _, s, i =>
    s.missActiveQ = true → s.missInvalidatedQ = false → s.missOwnerQ ≠ .prefetch →
      if s'.missActiveQ then s.ownerReq i = s'.ownerReq i'
      else s'.mainReq p i' = some (s.ownerReq i)

/-- A global page of 4 KiB is walked only where no entry of another space has it, but for
the one that the walk takes the way of. -/
def Unaliased (p : TlbParams) (s : MtlXlateState) (i : MtlXlateInput) : Prop :=
  ∀ f, s.walkFill i = some f → f.level = 0 → ∀ way < p.ways, s.main.aliases p f way = true →
      way = s.main.fillWay p i.csrSatpAsidI (p.setOf f.vaddr)

/-- The surroundings, with the requests of walks held. -/
def Surrounded (p : TlbParams) (past : Past MtlXlateState MtlXlateInput)
    (s : MtlXlateState) (i : MtlXlateInput) : Prop :=
  Promised past s i ∧ Held p past s i

/-- A cycle in which no stale prefetch is translated and no global page is walked twice. -/
structure Careful (p : TlbParams) (past : Past MtlXlateState MtlXlateInput)
    (s : MtlXlateState) (i : MtlXlateInput) : Prop where
  current : PromisedCurrent past s i
  held : Held p past s i
  unaliased : Unaliased p s i

/-- The entry of a small cache has one in the shared cache behind it, of the same space. -/
def Backed (t : MainTlb) (vmMode : BitVec 4) (asid : BitVec 16) (m : TlbEntry) : Prop :=
  ∃ e, MainStores t e ∧ e.ownedBy vmMode asid = true ∧ Backs e m

/-- No entry of the shared cache answers the request of a walk that will fill. -/
def MissStands (p : TlbParams) (past : Past MtlXlateState MtlXlateInput)
    (s : MtlXlateState) : Prop :=
  s.missActiveQ = true → s.missInvalidatedQ = false →
    ∀ i, Held p past s i → s.main.Misses p (s.ownerReq i)

/-- Unless the last fill evicted an entry of the current space, which the small caches are
about to hear of, their entries are backed. -/
def Included (past : Past MtlXlateState MtlXlateInput) (s : MtlXlateState) : Prop :=
  s.main.fillEvictCurrentQ = false → ∀ i, Steady past i →
    (∀ n, (s.itlb.entry n).valid = true →
        Backed s.main i.csrSatpModeI i.csrSatpAsidI (s.itlb.entry n)) ∧
      ∀ n, (s.dtlb.entry n).valid = true →
        Backed s.main i.csrSatpModeI i.csrSatpAsidI (s.dtlb.entry n)

/-! ## The walk in progress -/

/-- A lookup that finds nothing, while the array is not read by a fill, is a miss. -/
theorem misses_of_lookup {t : MainTlb} (hplaced : t.Placed p) {q : XlateRequest}
    (hlook : t.lookup p false none (some q) = none) : t.Misses p q := by
  have hnofill : (fill4k none).isSome = false := rfl
  simp only [MainTlb.lookup, hnofill, Bool.or_self, if_low] at hlook
  cases hway : (List.range p.ways).find? (t.hits p q) with
  | some way =>
    rw [hway] at hlook
    cases hlook
  | none =>
    rw [hway] at hlook
    simp only [TaggedTlb.lookup, if_low, Option.map_eq_none_iff] at hlook
    rw [List.find?_eq_none] at hway hlook
    constructor
    · intro way
      apply Bool.eq_false_of_not_eq_true
      intro hhit
      have hval : (t.entry way (p.setOf q.vaddr)).valid := by
        simp only [MainTlb.hits, and_eq_true] at hhit
        exact hhit.1.1
      exact hway way (List.mem_range.mpr (hplaced.array _ _ hval).1) hhit
    · intro n
      apply Bool.eq_false_of_not_eq_true
      intro hhit
      have hval : (t.superpage.entry n).valid := by
        simp only [TaggedTlb.hits, and_eq_true] at hhit
        exact hhit.1.1
      exact hlook n (List.mem_range.mpr (hplaced.superpage _ hval)) hhit

/-- Invalidation leaves nothing to hit, and nothing else but a fill changes what hits. -/
theorem misses_step {t : MainTlb} {q : XlateRequest} (asid : BitVec 16) (tlbi : Bool)
    (h : tlbi = false → t.Misses p q) : (t.step p asid tlbi none).Misses p q := by
  cases tlbi with
  | true =>
    constructor
    · intro way
      simp [MainTlb.step, MainTlb.hits]
    · intro n
      simp [MainTlb.step_superpage, TaggedTlb.step, TaggedTlb.hits]
  | false => exact h rfl

/-- A walk starts at a lookup that missed, that of a prefetch at its own request. -/
theorem lookup_of_startWalk {owner : XlateOwner} (h : s.startWalk p i = some owner) :
    s.mainLookup p i = none ∧ (owner = .prefetch → s.mainReq p i = some s.prefetch.req) := by
  have hneeds : ∀ {select : Option XlateRequest}, s.needsWalk p i select →
      select.isSome ∧ s.mainLookup p i = none := by
    intro select hn
    rwa [needsWalk, and_eq_true, Option.isNone_iff_eq_none] at hn
  unfold startWalk at h
  split at h
  · cases h
  split at h
  · rename_i hserial
    obtain rfl := some.inj h
    exact ⟨(hneeds hserial).2, XlateOwner.noConfusion⟩
  split at h
  · rename_i hfetch
    obtain rfl := some.inj h
    exact ⟨(hneeds hfetch).2, XlateOwner.noConfusion⟩
  split at h
  · rename_i hprefetch
    obtain ⟨hsome, hmiss⟩ := hneeds hprefetch
    obtain ⟨q, hq⟩ := Option.isSome_iff_exists.mp hsome
    refine ⟨hmiss, fun _ => ?_⟩
    have hq' := hq
    unfold selectPrefetch at hq'
    split at hq'
    · rename_i hfree
      simp only [and_eq_true, Option.isNone_iff_eq_none] at hfree
      rw [mainReq_of_instruction (r := q) (by rw [hfree.1.2, Option.none_or, hq]),
        (prefetchReq_eq_some hq').1]
    · cases hq'
  · cases h

theorem walkFill_none (h : s.missActiveQ = false ∨ i.ptwRespValid = false) :
    s.walkFill i = none := by
  rw [walkFill, walkFillValid]
  rcases h with h | h <;> simp [h]

/-- While a walk goes on, its request keeps missing. -/
theorem MissStands.step (h : MissStands p past s) (hheld : Held p past s i)
    (hprefetch : PrefetchWalks s) (hplaced : s.main.Placed p) :
    MissStands p ((s, i) :: past) (s.step p i) := by
  intro hact hval i' hnxt
  have hrsp : i.ptwRespValid = false := by
    refine eq_false_of_ne_true fun hr => ?_
    simp [MtlXlateState.step, hr] at hact
  have hmain : (s.step p i).main = s.main.step p i.csrSatpAsidI i.tlbiI none := by
    rw [MtlXlateState.step, walkFill_none (.inr hrsp)]
  rw [hmain]
  apply misses_step
  intro htlbi
  cases hwas : s.missActiveQ with
  | true =>
    have hstart : s.startWalk p i = none := by simp [startWalk, hwas]
    have hown : (s.step p i).missOwnerQ = s.missOwnerQ := by
      simp [MtlXlateState.step, hstart]
    have hkept : s.missInvalidatedQ = false := by
      by_cases hinv : i.translationInvalidate
      · simp [MtlXlateState.step, hrsp, hinv, hwas] at hval
      · simpa [MtlXlateState.step, hrsp, hinv, hwas, hstart] using hval
    have hsame : (s.step p i).ownerReq i' = s.ownerReq i := by
      by_cases hpre : s.missOwnerQ = .prefetch
      · have hph := (hprefetch hwas hpre).1
        have hreq : (s.step p i).prefetch = s.prefetch := by
          simp [MtlXlateState.step, prefetchStep, hph, hrsp]
        rw [ownerReq, ownerReq, hown, hpre, hreq]
      · have hkeep := hnxt hact hval (hown ▸ hpre)
        rwa [hwas, if_pos rfl] at hkeep
    rw [hsame]
    exact h hwas hkept i hheld
  | false =>
  cases hstart : s.startWalk p i with
  | none => simp [MtlXlateState.step, hrsp, hwas, hstart] at hact
  | some owner =>
    obtain ⟨hmiss, hself⟩ := lookup_of_startWalk hstart
    have hown : (s.step p i).missOwnerQ = owner := by
      simp [MtlXlateState.step, hstart]
    have hreq : s.mainReq p i = some ((s.step p i).ownerReq i') := by
      by_cases hpre : owner = .prefetch
      · have hlater : (s.step p i).prefetch.req = s.prefetch.req := by
          rw [hpre] at hstart
          rw [MtlXlateState.step, prefetchStep_start hstart]
        rw [ownerReq, hown, hpre, hlater]
        exact hself hpre
      · have hkeep := hnxt hact hval (hown ▸ hpre)
        rwa [hwas, if_low] at hkeep
    rw [mainLookup, hreq, htlbi, walkFill_none (.inl hwas)] at hmiss
    exact misses_of_lookup hplaced hmiss

/-- The fill of a walk finds what its lookup found. -/
theorem fillsMiss_walkFill (h : MissStands p past s) (hheld : Held p past s i)
    (hunaliased : Unaliased p s i) (hplaced : s.main.Placed p) {f : TlbFill}
    (hfill : s.walkFill i = some f) : s.main.FillsMiss p i.csrSatpAsidI f := by
  have hf := hfill
  unfold walkFill at hf
  split at hf
  · rename_i hval
    simp only [walkFillValid, and_eq_true, Bool.not_eq_true'] at hval
    obtain ⟨⟨⟨⟨⟨⟨-, hact⟩, hkept⟩, -⟩, -⟩, -⟩, -⟩ := hval
    have hmiss := h hact hkept i hheld
    obtain rfl := some.inj hf
    refine ⟨⟨s.ownerReq i, rfl, rfl, rfl, hmiss⟩, ?_⟩
    intro hlvl way halias
    have hway : way < p.ways := by
      simp only [aliases, and_eq_true] at halias
      exact (hplaced.array _ _ halias.1.1.1).1
    exact hunaliased _ hfill hlvl way hway halias
  · cases hf

/-! ## Inclusion -/

/-- A walk that fills is one of the current space. -/
theorem walkFill_space (h : Filled past s) (henv : Promised past s i)
    (hcurrent : PrefetchCurrent s i) {f : TlbFill} (hfill : s.walkFill i = some f) :
    f.vmMode = i.csrSatpModeI ∧ f.asid = i.csrSatpAsidI := by
  obtain ⟨w, -, hq, hcache⟩ := holds_walkFill past h.prefetch henv.walked hfill
  have hact := walkFillValid_active hfill
  have hbare : (s.ownerReq i).bare = false := by
    rw [bare_eq_false, ← hq, w.mode]
    decide
  have hspace : InSpace i (s.ownerReq i) := by
    cases hown : s.missOwnerQ with
    | fetch =>
      rw [ownerReq, hown]
      exact henv.missFetch hact hown
    | lsu =>
      rw [ownerReq, hown]
      exact henv.serial (.inr ⟨hact, hown⟩)
    | prefetch =>
      rw [ownerReq, hown]
      exact hcurrent (.inr (h.prefetch hact hown).1)
  have hf := hfill
  unfold walkFill at hf
  split at hf
  · obtain rfl := some.inj hf
    exact hspace hbare
  · cases hf

/-- A hit of the shared cache comes from an entry that backs the refill. -/
theorem backs_of_lookup {t : MainTlb} (hplaced : t.Placed p) {fill : Option TlbFill}
    {tlbi : Bool} {r : XlateRequest} {hit : TlbHit}
    (hlook : t.lookup p tlbi fill (some r) = some hit) :
    ∃ e, MainStores t e ∧ e.ownedBy r.vmMode r.asid ∧ Backs e (hit.fill r).entry := by
  obtain ⟨q, hq, ⟨way, hway, rfl⟩ | ⟨n, hn, rfl⟩⟩ := lookup_eq_some hlook
  · obtain rfl := some.inj hq
    simp only [MainTlb.hits, and_eq_true, beq_iff_eq] at hway
    obtain ⟨⟨hval, hvpn⟩, howned⟩ := hway
    have hlvl := (hplaced.array _ _ hval).2.1
    refine ⟨_, ⟨hval, .inl ⟨way, _, rfl⟩⟩, howned, ?_⟩
    rw [answer4k_eq hlvl]
    apply backs_refill
    rw [hvpn]
    exact vpnMatch_refl _ _
  · obtain rfl := some.inj hq
    simp only [TaggedTlb.hits, and_eq_true] at hn
    exact ⟨_, ⟨hn.1.1, .inr ⟨n, rfl⟩⟩, hn.2, backs_refill hn.1.2⟩

section Step

variable (h : Filled past s) (henv : Careful p past s i) (hmiss : MissStands p past s)
  (hplaced : s.main.Placed p) (hflush : s.microTlbi i = false)
  (hkept : (s.step p i).main.fillEvictCurrentQ = false)

include h henv hmiss hplaced hflush hkept

theorem backed_kept {m : TlbEntry} (hbacked : Backed s.main i.csrSatpModeI i.csrSatpAsidI m) :
    Backed (s.step p i).main i.csrSatpModeI i.csrSatpAsidI m := by
  obtain ⟨e, hstored, howned, hbacks⟩ := hbacked
  have hmain : (s.step p i).main = s.main.step p i.csrSatpAsidI false (s.walkFill i) := by
    rw [MtlXlateState.step, microTlbi_false hflush]
  refine ⟨e, ?_, howned, hbacks⟩
  rw [hmain] at hkept ⊢
  apply stores_step hstored howned ?_ hkept
  intro f hf
  exact ⟨fillsMiss_walkFill hmiss henv.held henv.unaliased hplaced hf,
    (walkFill_space h henv.current.1 henv.current.2 hf).2⟩

omit hmiss hplaced hkept in
/-- The fill of a walk is backed by the entry that it makes. -/
theorem backed_walkFill (hsets : 2 ≤ p.sets) {f : TlbFill} (hfill : s.walkFill i = some f) :
    Backed (s.step p i).main i.csrSatpModeI i.csrSatpAsidI f.entry := by
  obtain ⟨hmode, hasid⟩ := walkFill_space h henv.current.1 henv.current.2 hfill
  have hmain : (s.step p i).main = s.main.step p i.csrSatpAsidI false (some f) := by
    rw [MtlXlateState.step, microTlbi_false hflush, hfill]
  refine ⟨f.entry, hmain ▸ stores_fill hsets f, ?_, Backs.refl _⟩
  simp [ownedBy, TlbFill.entry, hmode, hasid]

/-- A refill is backed by the entry that gave the hit. -/
theorem backed_refill {select : Option XlateRequest}
    (hsel : ∀ r, select = some r → s.mainReq p i = some r)
    (hspace : ∀ r, select = some r → r.vmMode = i.csrSatpModeI ∧ r.asid = i.csrSatpAsidI)
    {f : TlbFill} (hfill : s.refill p i select = some f) :
    Backed (s.step p i).main i.csrSatpModeI i.csrSatpAsidI f.entry := by
  unfold refill at hfill
  split at hfill
  · rename_i r hit hhit
    split at hfill
    · cases hfill
    obtain rfl := some.inj hfill
    rw [mainLookup, hsel r rfl] at hhit
    obtain ⟨e, hstored, howned, hbacks⟩ := backs_of_lookup hplaced hhit
    obtain ⟨hmode, hasid⟩ := hspace r rfl
    rw [hmode, hasid] at howned
    exact backed_kept h henv hmiss hplaced hflush hkept ⟨e, hstored, howned, hbacks⟩
  · cases hfill

theorem backed_itlbFill (hsets : 2 ≤ p.sets) {f : TlbFill} (hfill : s.itlbFill p i = some f) :
    Backed (s.step p i).main i.csrSatpModeI i.csrSatpAsidI f.entry := by
  rcases itlbFill_cases hfill with ⟨hwalk, -⟩ | hrefill
  · exact backed_walkFill h henv hflush hsets hwalk
  · exact backed_refill h henv hmiss hplaced hflush hkept (fun r hr => mainReq_of_instruction hr)
      (fun r hr => instruction_space henv.current.1 henv.current.2 (select_instruction hr))
      hrefill

theorem backed_dtlbFill (hsets : 2 ≤ p.sets) {f : TlbFill} (hfill : s.dtlbFill p i = some f) :
    Backed (s.step p i).main i.csrSatpModeI i.csrSatpAsidI f.entry := by
  rcases dtlbFill_cases hfill with ⟨hwalk, -⟩ | hrefill
  · exact backed_walkFill h henv hflush hsets hwalk
  · exact backed_refill h henv hmiss hplaced hflush hkept (fun r hr => mainReq_of_lsu hr)
      (fun r hr => data_space henv.current.1 (selectLsu_data hr)) hrefill

end Step

theorem Included.step (hincluded : Included past s) (h : Filled past s)
    (henv : Careful p past s i) (hmiss : MissStands p past s) (hplaced : s.main.Placed p)
    (hsets : 2 ≤ p.sets) : Included ((s, i) :: past) (s.step p i) := by
  intro hkept i' hsteady
  have hsame : s.microTlbi i = false →
      i'.csrSatpModeI = i.csrSatpModeI ∧ i'.csrSatpAsidI = i.csrSatpAsidI := by
    intro hflush
    simp only [microTlbi, Bool.or_eq_false_iff] at hflush
    exact hsteady hflush.1
  have hold : s.microTlbi i = false → s.main.fillEvictCurrentQ = false := by
    intro hflush
    simp only [microTlbi, Bool.or_eq_false_iff] at hflush
    exact hflush.2
  constructor
  · apply MicroTlb.step_forall (P := Backed (s.step p i).main i'.csrSatpModeI i'.csrSatpAsidI)
    · intro hflush n hval
      rw [(hsame hflush).1, (hsame hflush).2]
      exact backed_kept h henv hmiss hplaced hflush hkept
        ((hincluded (hold hflush) i henv.current.1.steady).1 n hval)
    · intro f hflush hf
      rw [(hsame hflush).1, (hsame hflush).2]
      exact backed_itlbFill h henv hmiss hplaced hflush hkept hsets hf
  · apply MicroTlb.step_forall (P := Backed (s.step p i).main i'.csrSatpModeI i'.csrSatpAsidI)
    · intro hflush n hval
      rw [(hsame hflush).1, (hsame hflush).2]
      exact backed_kept h henv hmiss hplaced hflush hkept
        ((hincluded (hold hflush) i henv.current.1.steady).2 n hval)
    · intro f hflush hf
      rw [(hsame hflush).1, (hsame hflush).2]
      exact backed_dtlbFill h henv hmiss hplaced hflush hkept hsets hf

/-! ## Every run -/

/-- What a run keeps of the caches. -/
structure Caches (p : TlbParams) (past : Past MtlXlateState MtlXlateInput)
    (s : MtlXlateState) : Prop where
  filled : Filled past s
  placed : s.main.Placed p
  misses : MissStands p past s
  array : s.main.Distinct p
  superpage : s.main.superpage.Distinct
  included : Included past s

theorem Caches.step (h : Caches p past s) (henv : Careful p past s i)
    (hsets : 2 ≤ p.sets) : Caches p ((s, i) :: past) (s.step p i) where
  filled := h.filled.step henv.current.1.walked
  placed := h.placed.step _ _ _
  misses := h.misses.step henv.held h.filled.prefetch h.placed
  array := h.array.step fun _ hf =>
    fillsMiss_walkFill h.misses henv.held henv.unaliased h.placed hf
  superpage := by
    rw [MtlXlateState.step, MainTlb.step_superpage]
    exact h.superpage.step _ _ _
  included := h.included.step h.filled henv h.misses h.placed hsets

theorem caches_of_run (hsets : 2 ≤ p.sets)
    (hrun : Run (mtlXlateReset p) (Careful p) past s) : Caches p past s := by
  induction hrun with
  | reset hinit =>
    obtain ⟨hinit, hturn, hturnSuperpage⟩ := hinit
    refine ⟨⟨⟨fun way set h => absurd h (by simp [hinit.array way set]),
        fun n h => absurd h (by simp [hinit.superpage n])⟩,
      fun n h => absurd h (by simp [hinit.itlb n]), fun n h => absurd h (by simp [hinit.dtlb n]),
      fun h => absurd h (by simp [hinit.miss])⟩,
      ⟨fun set => (hturn set).symm ▸ p.ways_pos, hturnSuperpage.symm ▸ p.superpage_pos,
        fun way set h => absurd h (by simp [hinit.array way set]),
        fun n h => absurd h (by simp [hinit.superpage n])⟩,
      fun h => absurd h (by simp [hinit.miss]), ?_, ?_, ?_⟩
    · intro r way way' h
      simp [MainTlb.hits, hinit.array] at h
    · intro r n k h
      simp [TaggedTlb.hits, hinit.superpage] at h
    · exact fun _ _ _ => ⟨fun n h => absurd h (by simp [hinit.itlb n]),
        fun n h => absurd h (by simp [hinit.dtlb n])⟩
  | cycle i _ henv ih => exact ih.step henv hsets

/-- The lookup is answered by a valid entry of the shared cache, as by the small one. -/
def BackedHit (p : TlbParams) (t : MainTlb) (r : XlateRequest) (answer : TlbHit) : Prop :=
  (∃ way < p.ways, t.hits p r way = true ∧ answer4k (t.entry way (p.setOf r.vaddr)) r = answer) ∨
    ∃ n < p.superpageEntries, t.superpage.hits r n = true ∧ (t.superpage.entry n).answer r = answer

/-- No two ways and no two superpages of one size answer one lookup, and every entry of a
small cache that can hit for the current space is backed. -/
structure TlbsSound (p : TlbParams) (past : Past MtlXlateState MtlXlateInput)
    (s : MtlXlateState) : Prop where
  array : ∀ r, ∀ way < p.ways, ∀ way' < p.ways, s.main.hits p r way = true →
    s.main.hits p r way' = true → way = way'
  superpage : ∀ r, ∀ n < p.superpageEntries, ∀ k < p.superpageEntries,
    s.main.superpage.hits r n = true → s.main.superpage.hits r k = true →
      (s.main.superpage.entry n).level = (s.main.superpage.entry k).level → n = k
  included : ∀ i, Steady past i → s.microTlbi i = false → ∀ r : XlateRequest,
    r.vmMode = i.csrSatpModeI → r.asid = i.csrSatpAsidI →
      (∀ n, s.itlb.hits r n = true → BackedHit p s.main r ((s.itlb.entry n).answer r)) ∧
        ∀ n, s.dtlb.hits r n = true → BackedHit p s.main r ((s.dtlb.entry n).answer r)

theorem backedHit_of_backed {t : MainTlb} (hplaced : t.Placed p) {micro : MicroTlb} {n : ℕ}
    {r : XlateRequest} (hbacked : Backed t r.vmMode r.asid (micro.entry n))
    (hhit : micro.hits r n) : BackedHit p t r ((micro.entry n).answer r) := by
  obtain ⟨e, ⟨hval, hplc⟩, howned, hbacks⟩ := hbacked
  rw [MicroTlb.hits, and_eq_true] at hhit
  have hmat : vpnMatch e.vpn (pageOf r.vaddr) e.level :=
    vpnMatch_trans hbacks.page (hbacks.level.symm ▸ hhit.2)
  rcases hplc with ⟨way, set, rfl⟩ | ⟨k, rfl⟩
  · obtain ⟨hway, hlvl, hset⟩ := hplaced.array way set hval
    rw [hlvl, vpnMatch_zero, beq_iff_eq] at hmat
    have hplc : p.setOf r.vaddr = set := hset r.vaddr hmat.symm
    refine .inl ⟨way, hway, ?_, ?_⟩
    · simp only [MainTlb.hits, hplc, hval, hmat, howned, beq_self_eq_true, Bool.and_self]
    · rw [hplc, answer4k_eq hlvl, hbacks.answer]
  · refine .inr ⟨k, hplaced.superpage k hval, ?_, hbacks.answer r⟩
    simp only [TaggedTlb.hits, hval, hmat, howned, Bool.and_self]

section GlobalAlias

/-- Tables with one executable page of 4 KiB of the kernel at zero, marked as global or
not. -/
def onePage (global : Bool) (level : ℕ) (_ : Sv39.Addr) : Option Sv39.Pte :=
  if level = 0 then some (if global then 0x6b else 0x4b) else some 0x1

/-- The page is prefetched in space 1, whose tables do not mark it as global, and then in
space 2, whose tables do. -/
def globalAlias : List MtlXlateInput :=
  [{ quietXlate 1 with l1iXlateReq := some (spaceReq 1) },
   { quietXlate 1 with ptwReqReady := true },
   { quietXlate 1 with
     ptwRespValid := true
     ptwResp := (spaceReq 1).translate (onePage false) },
   { quietXlate 1 with prefetchPmpComplete := true },
   { quietXlate 1 with l1iXlateRespReady := true, contextFlushI := true },
   { quietXlate 2 with l1iXlateReq := some (spaceReq 2) },
   { quietXlate 2 with ptwReqReady := true },
   { quietXlate 2 with
     ptwRespValid := true
     ptwResp := (spaceReq 2).translate (onePage true) }]

theorem emptyXlate_init (p : TlbParams) : (mtlXlateReset p).Init emptyXlate :=
  ⟨⟨fun _ _ => rfl, fun _ => rfl, fun _ => rfl, fun _ => rfl, rfl, rfl, rfl⟩, fun _ => rfl, rfl⟩

theorem surrounded_of_quiet (hwalked : Walked s i) (hsteady : Steady past i)
    (hown : s.missActiveQ → s.missOwnerQ = .prefetch)
    (hfetch : i.fetchXlate = none)
    (hprefetch : ∀ r, i.l1iXlateReq = some r → InSpace i r) (hmiss : i.missFetch = bareReq)
    (hserial : i.lsuQ = bareReq) (hlive : i.lsuXlateReqI = none) : Surrounded p past s i := by
  refine ⟨promised_of_quiet hwalked hsteady (fun r hr => ?_) hprefetch hmiss hserial hlive, ?_⟩
  · rw [hfetch] at hr
    cases hr
  · cases past with
    | nil => trivial
    | cons x past => exact fun hact _ hoth => absurd (hown hact) hoth

theorem globalAlias_run : Run (mtlXlateReset smallTlb) (Surrounded smallTlb)
      (exec (mtlXlateReset smallTlb) [] emptyXlate globalAlias).1
      (exec (mtlXlateReset smallTlb) [] emptyXlate globalAlias).2 := by
  refine .cycle _ (.cycle _ (.cycle _ (.cycle _ (.cycle _ (.cycle _ (.cycle _ (.cycle _
    (.reset (emptyXlate_init _)) ?_) ?_) ?_) ?_) ?_) ?_) ?_) ?_
  · exact surrounded_of_quiet absurd_low trivial
      absurd_low rfl (inSpace_some rfl fun _ => ⟨rfl, rfl⟩) rfl rfl rfl
  · exact surrounded_of_quiet absurd_low (fun _ => ⟨rfl, rfl⟩) absurd_low rfl
      (inSpace_none rfl) rfl rfl rfl
  · exact surrounded_of_quiet (fun _ => ⟨⟨onePage false, rfl⟩, fun h => absurd rfl h⟩)
      (fun _ => ⟨rfl, rfl⟩) (fun _ => rfl) rfl
      (inSpace_none rfl) rfl rfl rfl
  · exact surrounded_of_quiet absurd_low (fun _ => ⟨rfl, rfl⟩) absurd_low rfl
      (inSpace_none rfl) rfl rfl rfl
  · exact surrounded_of_quiet absurd_low (fun _ => ⟨rfl, rfl⟩) absurd_low rfl
      (inSpace_none rfl) rfl rfl rfl
  · exact surrounded_of_quiet absurd_low (fun h => absurd h (by decide)) absurd_low rfl
      (inSpace_some rfl fun _ => ⟨rfl, rfl⟩) rfl rfl rfl
  · exact surrounded_of_quiet absurd_low (fun _ => ⟨rfl, rfl⟩) absurd_low rfl
      (inSpace_none rfl) rfl rfl rfl
  · exact surrounded_of_quiet (fun _ => ⟨⟨onePage true, rfl⟩, fun h => absurd rfl h⟩)
      (fun _ => ⟨rfl, rfl⟩) (fun _ => rfl) rfl
      (inSpace_none rfl) rfl rfl rfl

theorem freshPrefetch_careful : Run (mtlXlateReset smallTlb) (Careful smallTlb)
      (exec (mtlXlateReset smallTlb) [] emptyXlate freshPrefetch).1
      (exec (mtlXlateReset smallTlb) [] emptyXlate freshPrefetch).2 := by
  refine .cycle _ (.cycle _ (.cycle _ (.reset (emptyXlate_init _)) ?_) ?_) ?_
  · have hsurrounded : Surrounded smallTlb [] emptyXlate
        { quietXlate 1 with l1iXlateReq := some (spaceReq 1) } := by
      exact surrounded_of_quiet absurd_low trivial
        absurd_low rfl (inSpace_some rfl fun _ => ⟨rfl, rfl⟩) rfl rfl rfl
    exact ⟨⟨hsurrounded.1, fun h => absurd h (by decide)⟩, hsurrounded.2,
      fun f hf => absurd hf (by simp [walkFill, walkFillValid, quietXlate])⟩
  · have hsurrounded : Surrounded smallTlb
        (exec (mtlXlateReset smallTlb) [] emptyXlate (freshPrefetch.take 1)).1
        (exec (mtlXlateReset smallTlb) [] emptyXlate (freshPrefetch.take 1)).2
        { quietXlate 1 with ptwReqReady := true } :=
      surrounded_of_quiet absurd_low (fun _ => ⟨rfl, rfl⟩) absurd_low rfl
        (inSpace_none rfl) rfl rfl rfl
    exact ⟨⟨hsurrounded.1, fun _ _ => ⟨rfl, rfl⟩⟩, hsurrounded.2,
      fun f hf => absurd hf (by simp [walkFill, walkFillValid, quietXlate])⟩
  · have hsurrounded : Surrounded smallTlb
        (exec (mtlXlateReset smallTlb) [] emptyXlate (freshPrefetch.take 2)).1
        (exec (mtlXlateReset smallTlb) [] emptyXlate (freshPrefetch.take 2)).2
        { quietXlate 1 with
          ptwRespValid := true
          ptwResp := (spaceReq 1).translate zeroPage } :=
      surrounded_of_quiet (fun _ => ⟨⟨zeroPage, rfl⟩, fun h => absurd rfl h⟩)
        (fun _ => ⟨rfl, rfl⟩) (fun _ => rfl) rfl
        (inSpace_none rfl) rfl rfl rfl
    refine ⟨⟨hsurrounded.1, fun _ _ => ⟨rfl, rfl⟩⟩, hsurrounded.2, ?_⟩
    intro f hf hlvl
    obtain rfl := some.inj hf
    cases hlvl

end GlobalAlias

end MtlXlateState

end OpenRV64
