/-
Which entries of the shared translation cache can answer one lookup: at most one way of
the indexed array, and at most one superpage of each size.
-/
import OpenRV64.TlbAgreement

namespace OpenRV64

open Bool (and_eq_true or_eq_true)
open List (mem_range mem_of_find?_eq_some range mem_map)
open TlbEntry (ownedBy)

section Pages

theorem vpnMatch_trans {a b c : BitVec 52} {level : ℕ} (h : vpnMatch a b level)
    (h' : vpnMatch b c level) : vpnMatch a c level := by
  unfold vpnMatch at h h' ⊢
  split at h <;> simp only [beq_iff_eq] at h h' ⊢ <;> exact h.trans h'

theorem vpnMatch_symm {a b : BitVec 52} {level : ℕ} (h : vpnMatch a b level) :
    vpnMatch b a level := by
  unfold vpnMatch at h ⊢
  split at h <;> simp only [beq_iff_eq] at h ⊢ <;> exact h.symm

theorem vpnMatch_refl (a : BitVec 52) (level : ℕ) : vpnMatch a a level := by
  unfold vpnMatch
  split <;> exact beq_self_eq_true _

theorem setOf_congr (p : TlbParams) {va va' : BitVec 64} (h : pageOf va = pageOf va') :
    p.setOf va = p.setOf va' := by
  have hbit : ∀ k, va.getLsbD (12 + k) = va'.getLsbD (12 + k) := by
    intro k
    by_cases hk : k < 52
    · rw [Nat.add_comm, ← getLsbD_pageOf hk, ← getLsbD_pageOf hk, h]
    · rw [BitVec.getLsbD_of_ge _ _ (by omega), BitVec.getLsbD_of_ge _ _ (by omega)]
  rw [TlbParams.setOf, TlbParams.setOf]
  congr 1
  apply BitVec.eq_of_getLsbD_eq
  intro k hk
  rw [BitVec.getLsbD_extractLsb', BitVec.getLsbD_extractLsb', hbit]

/-- An array of more than one set has every set that an address selects. -/
theorem setOf_lt {p : TlbParams} (hsets : 2 ≤ p.sets) (va : BitVec 64) : p.setOf va < p.sets := by
  obtain ⟨k, hk⟩ := p.sets_pow
  have hk : p.sets = 2 ^ k := hk
  have hwidth : p.setIndexWidth = k := by
    rw [TlbParams.setIndexWidth, if_neg (by omega), hk, clog2_two_pow]
  rw [TlbParams.setOf, hwidth, hk]
  exact (va.extractLsb' 12 k).isLt

end Pages

/-! ## Superpages -/

namespace TaggedTlb

variable {entries : ℕ} {t : TaggedTlb}

/-- Superpages of one size that answer one lookup are one. -/
def Distinct (t : TaggedTlb) : Prop :=
  ∀ r n k, t.hits r n = true → t.hits r k = true → (t.entry n).level = (t.entry k).level → n = k

/-- An entry that answers a lookup which the fill would answer too is a duplicate. -/
theorem duplicates_of_hits {f : TlbFill} {r : XlateRequest} {n : ℕ}
    (h : t.hits r n) (hlvl : (t.entry n).level = f.level)
    (hpage : vpnMatch (pageOf f.vaddr) (pageOf r.vaddr) f.level)
    (howned : f.entry.ownedBy r.vmMode r.asid) : t.duplicates f n := by
  simp only [hits, ownedBy, and_eq_true, or_eq_true, beq_iff_eq] at h
  obtain ⟨⟨hval, hmat⟩, hmode, hasid⟩ := h
  simp only [ownedBy, TlbFill.entry, and_eq_true, or_eq_true, beq_iff_eq] at howned
  rw [hlvl] at hmat
  simp only [duplicates, TlbEntry.sameFill, and_eq_true, or_eq_true, beq_iff_eq]
  refine ⟨⟨⟨⟨hval, hlvl⟩, vpnMatch_trans hmat (vpnMatch_symm hpage)⟩,
    hmode.trans howned.1.symm⟩, ?_⟩
  rcases hasid with hglobal | hasid
  · exact .inl (.inl hglobal)
  · rcases howned.2 with hglobal | hfill
    · exact .inl (.inr hglobal)
    · exact .inr (hasid.trans hfill.symm)

/-- The entries after a fill: its own, and those before that do not duplicate it. -/
theorem step_hits {preferAsid : BitVec 16} {f : TlbFill} {r : XlateRequest} {n : ℕ}
    (h : (t.step entries preferAsid false (some f)).hits r n) :
    (n = t.fillIndex entries preferAsid f ∧
        (t.step entries preferAsid false (some f)).entry n = f.entry) ∨
      (t.hits r n ∧ t.duplicates f n = false ∧
        (t.step entries preferAsid false (some f)).entry n = t.entry n) := by
  by_cases hn : n = t.fillIndex entries preferAsid f
  · refine .inl ⟨hn, ?_⟩
    simp only [step, if_low, if_pos hn]
  have hent : (t.step entries preferAsid false (some f)).entry n =
      { t.entry n with valid := (t.entry n).valid && !t.duplicates f n } := by
    simp only [step, if_low, if_neg hn]
  rw [hits, hent] at h
  simp only [and_eq_true, Bool.not_eq_true'] at h
  obtain ⟨⟨⟨hval, hdup⟩, hmat⟩, howned⟩ := h
  refine .inr ⟨?_, hdup, ?_⟩
  · rw [hits, and_eq_true, and_eq_true]
    exact ⟨⟨hval, hmat⟩, howned⟩
  · rw [hent, hdup, hval]
    cases hold : t.entry n with
    | mk valid =>
      rw [hold] at hval
      have hv : valid := hval
      rw [hv]
      rfl

theorem Distinct.step (h : t.Distinct) (preferAsid : BitVec 16) (tlbi : Bool)
    (fill : Option TlbFill) : (t.step entries preferAsid tlbi fill).Distinct := by
  intro r n k hn hk hlvl
  cases tlbi with
  | true => simp [TaggedTlb.step, hits] at hn
  | false =>
  cases fill with
  | none => exact h r n k hn hk hlvl
  | some f =>
    have hown : ∀ {j}, j = t.fillIndex entries preferAsid f →
        (t.step entries preferAsid false (some f)).entry j = f.entry →
        (t.step entries preferAsid false (some f)).hits r j →
        vpnMatch (pageOf f.vaddr) (pageOf r.vaddr) f.level ∧ f.entry.ownedBy r.vmMode r.asid := by
      intro j _ hent hhit
      rw [hits, hent, and_eq_true, and_eq_true] at hhit
      exact ⟨hhit.1.2, hhit.2⟩
    rcases step_hits hn with ⟨hnf, hne⟩ | ⟨hnt, hnd, hne⟩
    · rcases step_hits hk with ⟨hkf, -⟩ | ⟨hkt, hkd, hke⟩
      · exact hnf.trans hkf.symm
      · obtain ⟨hpage, howned⟩ := hown hnf hne hn
        rw [hne, hke] at hlvl
        rw [duplicates_of_hits hkt hlvl.symm hpage howned] at hkd
        cases hkd
    rcases step_hits hk with ⟨hkf, hke⟩ | ⟨hkt, -, hke⟩
    · obtain ⟨hpage, howned⟩ := hown hkf hke hk
      rw [hne, hke] at hlvl
      rw [duplicates_of_hits hnt hlvl hpage howned] at hnd
      cases hnd
    · rw [hne, hke] at hlvl
      exact h r n k hnt hkt hlvl

theorem fillIndex_lt (hturn : t.replaceQ < entries)
    (preferAsid : BitVec 16) (f : TlbFill) : t.fillIndex entries preferAsid f < entries := by
  unfold fillIndex
  split
  · rename_i n hfind
    exact mem_range.mp (mem_of_find?_eq_some hfind)
  split
  · rename_i n hfind
    exact mem_range.mp (mem_of_find?_eq_some hfind)
  cases hfind : (((range entries).map (t.candidate entries)).find? fun n =>
      (t.entry n).valid && !(t.entry n).global && (t.entry n).asid != preferAsid) with
  | none => exact hturn
  | some n =>
    obtain ⟨k, hk, rfl⟩ := mem_map.mp (mem_of_find?_eq_some hfind)
    rw [mem_range] at hk
    rw [Option.getD_some, candidate]
    split <;> omega

end TaggedTlb

/-! ## The array -/

namespace MainTlb

variable (p : TlbParams) (t : MainTlb)

/-- Ways that answer one lookup are one. -/
def Distinct : Prop := ∀ r way way', t.hits p r way = true → t.hits p r way' = true → way = way'

/-- Where the valid entries are. -/
structure Placed : Prop where
  turn : ∀ set, t.replaceQ set < p.ways
  turnSuperpage : t.superpage.replaceQ < p.superpageEntries
  array : ∀ way set, (t.entry way set).valid = true → way < p.ways ∧ (t.entry way set).level = 0 ∧
      ∀ va, pageOf va = (t.entry way set).vpn → p.setOf va = set
  superpage : ∀ n, (t.superpage.entry n).valid = true → n < p.superpageEntries

/-- A way holds the page of a fill for another space, and one of the two is global. -/
def aliases (f : TlbFill) (way : ℕ) : Bool :=
  let e := t.entry way (p.setOf f.vaddr)
  e.valid && e.vpn == pageOf f.vaddr && e.vmMode == f.vmMode && f.global

/-- No entry of the array or of the superpages answers the request. -/
def Misses (r : XlateRequest) : Prop :=
  (∀ way, t.hits p r way = false) ∧ ∀ n, t.superpage.hits r n = false

variable {p : TlbParams} {t : MainTlb}

theorem fillWay_lt (hturn : ∀ set, t.replaceQ set < p.ways) (currentAsid : BitVec 16)
    (set : ℕ) : t.fillWay p currentAsid set < p.ways := by
  have hset := hturn set
  unfold fillWay
  split
  · rename_i way hfind
    exact mem_range.mp (mem_of_find?_eq_some hfind)
  cases hfind : (((range p.ways).map (t.candidate p set)).find? fun way =>
      (t.entry way set).valid && !(t.entry way set).global &&
        (t.entry way set).asid != currentAsid) with
  | none => exact hset
  | some way =>
    obtain ⟨k, hk, rfl⟩ := mem_map.mp (mem_of_find?_eq_some hfind)
    rw [mem_range] at hk
    rw [Option.getD_some, candidate]
    split <;> omega

theorem fill4k_some {f : TlbFill} (h : f.level = 0) : fill4k (some f) = some f := by
  simp [fill4k, h]

theorem fill4k_none {f : TlbFill} (h : f.level ≠ 0) : fill4k (some f) = none := by
  simp [fill4k, h]

theorem fillSuperpage_some {f : TlbFill} (h : f.level ≠ 0) : fillSuperpage (some f) = some f := by
  simp [fillSuperpage, h]

theorem fillSuperpage_none {f : TlbFill} (h : f.level = 0) : fillSuperpage (some f) = none := by
  simp [fillSuperpage, h]

variable (p t) in
/-- The array after a clock edge without invalidation: the filled way, and the others. -/
theorem step_entry (currentAsid : BitVec 16) (fill : Option TlbFill) (way set : ℕ) :
    (∃ f, fill = some f ∧ f.level = 0 ∧ way = t.fillWay p currentAsid (p.setOf f.vaddr) ∧
        set = p.setOf f.vaddr ∧ set < p.sets ∧
          (t.step p currentAsid false fill).entry way set = f.entry) ∨
      ((∀ f, fill = some f → f.level = 0 →
          way ≠ t.fillWay p currentAsid (p.setOf f.vaddr) ∨ set ≠ p.setOf f.vaddr ∨
            ¬ set < p.sets) ∧
        (t.step p currentAsid false fill).entry way set = t.entry way set) := by
  cases fill with
  | none => exact .inr ⟨fun f hf => absurd hf (by simp), rfl⟩
  | some f =>
  by_cases hlvl : f.level = 0
  · by_cases hplc : way = t.fillWay p currentAsid (p.setOf f.vaddr) ∧
        set = p.setOf f.vaddr ∧ p.setOf f.vaddr < p.sets
    · refine .inl ⟨f, rfl, hlvl, hplc.1, hplc.2.1, hplc.2.1 ▸ hplc.2.2, ?_⟩
      simp only [step, fill4k_some hlvl, if_low, if_pos hplc]
    refine .inr ⟨?_, ?_⟩
    · rintro g hg -
      obtain rfl := Option.some.inj hg
      by_contra hall
      simp only [not_or, not_not] at hall
      exact hplc ⟨hall.1, hall.2.1, hall.2.1 ▸ hall.2.2⟩
    · simp only [step, fill4k_some hlvl, if_low, if_neg hplc]
  refine .inr ⟨?_, ?_⟩
  · rintro g hg hz
    obtain rfl := Option.some.inj hg
    exact absurd hz hlvl
  · simp only [step, fill4k_none hlvl, if_low]

/-- What a fill finds: its own request missed, and a global page of 4 KiB is there for
another space at most in the way that the fill takes. -/
structure FillsMiss (p : TlbParams) (currentAsid : BitVec 16) (t : MainTlb) (f : TlbFill) :
    Prop where
  misses : ∃ q : XlateRequest, q.vaddr = f.vaddr ∧ q.vmMode = f.vmMode ∧ q.asid = f.asid ∧
    t.Misses p q
  unaliased : f.level = 0 → ∀ way, t.aliases p f way = true →
    way = t.fillWay p currentAsid (p.setOf f.vaddr)

/-- A way that answers a lookup is taken by a fill that answers it too. -/
theorem FillsMiss.taken {f : TlbFill} {currentAsid : BitVec 16}
    (h : FillsMiss p currentAsid t f) (hlvl : f.level = 0)
    {r : XlateRequest} (hpage : pageOf f.vaddr = pageOf r.vaddr)
    (howned : f.entry.ownedBy r.vmMode r.asid) {way : ℕ}
    (hhit : t.hits p r way) : way = t.fillWay p currentAsid (p.setOf f.vaddr) := by
  have hset := setOf_congr p hpage
  have hfnd := hhit
  simp only [hits, ownedBy, and_eq_true, or_eq_true, beq_iff_eq, ← hset, ← hpage] at hfnd
  obtain ⟨⟨hval, hvpn⟩, hmode, hasid⟩ := hfnd
  simp only [ownedBy, TlbFill.entry, and_eq_true, or_eq_true, beq_iff_eq] at howned
  cases hglobal : f.global with
  | true =>
    apply h.unaliased hlvl
    simp [aliases, hval, hvpn, hmode, howned.1, hglobal]
  | false =>
    exfalso
    obtain ⟨q, hq, hqmode, hqasid, hmiss⟩ := h.misses
    have hfill : f.asid = r.asid := by
      rcases howned.2 with hg | ha
      · rw [hglobal] at hg
        cases hg
      · exact ha
    have hno := hmiss.1 way
    rw [← hq] at hset hvpn hval hmode hasid
    simp only [hits, hval, hvpn, Bool.true_and, beq_self_eq_true] at hno
    simp only [ownedBy, hqmode, hqasid, hmode, howned.1, hfill,
      beq_self_eq_true, Bool.true_and, Bool.or_eq_false_iff, beq_eq_false_iff_ne] at hno
    rcases hasid with hg | ha
    · exact Bool.false_ne_true (hno.1.symm.trans hg)
    · exact hno.2 ha

theorem Distinct.step (h : t.Distinct p) {currentAsid : BitVec 16} {tlbi : Bool}
    {fill : Option TlbFill} (hfill : ∀ f, fill = some f → FillsMiss p currentAsid t f) :
    (t.step p currentAsid tlbi fill).Distinct p := by
  intro r way way' hway hway'
  cases tlbi with
  | true => simp [MainTlb.step, hits] at hway
  | false =>
    have hold : ∀ {j}, (t.step p currentAsid false fill).entry j (p.setOf r.vaddr) =
        t.entry j (p.setOf r.vaddr) →
        (t.step p currentAsid false fill).hits p r j → t.hits p r j := by
      intro j hent hhit
      rw [hits, hent] at hhit
      exact hhit
    have hnew : ∀ {j f}, fill = some f → f.level = 0 →
        (t.step p currentAsid false fill).entry j (p.setOf r.vaddr) = f.entry →
        (t.step p currentAsid false fill).hits p r j →
        ∀ k, t.hits p r k → k = t.fillWay p currentAsid (p.setOf f.vaddr) := by
      intro j f hf hlvl hent hhit k hk
      rw [hits, hent] at hhit
      simp only [and_eq_true, beq_iff_eq] at hhit
      exact (hfill f hf).taken hlvl hhit.1.2 hhit.2 hk
    -- a way that the fill does not take cannot answer beside the fill
    have hkept : ∀ {j k f}, fill = some f → f.level = 0 → p.setOf r.vaddr = p.setOf f.vaddr →
        p.setOf r.vaddr < p.sets →
        (t.step p currentAsid false fill).entry j (p.setOf r.vaddr) = f.entry →
        (t.step p currentAsid false fill).hits p r j → t.hits p r k →
        (∀ g, fill = some g → g.level = 0 →
          k ≠ t.fillWay p currentAsid (p.setOf g.vaddr) ∨ p.setOf r.vaddr ≠ p.setOf g.vaddr ∨
            ¬ p.setOf r.vaddr < p.sets) → False := by
      intro j k f hf hlvl hset hlt hent hj hk hoth
      rcases hoth f hf hlvl with hne | hne | hge
      · exact hne (hnew hf hlvl hent hj k hk)
      · exact hne hset
      · exact hge hlt
    rcases step_entry p t currentAsid fill way (p.setOf r.vaddr) with
      ⟨f, hf, hlvl, hplc, hset, hlt, hent⟩ | ⟨hoth, hent⟩
    · rcases step_entry p t currentAsid fill way' (p.setOf r.vaddr) with
        ⟨g, hg, -, hplc', -, -, -⟩ | ⟨hoth', hent'⟩
      · obtain rfl : f = g := Option.some.inj (hf.symm.trans hg)
        exact hplc.trans hplc'.symm
      · exact (hkept hf hlvl hset hlt hent hway (hold hent' hway') hoth').elim
    · rcases step_entry p t currentAsid fill way' (p.setOf r.vaddr) with
        ⟨g, hg, hlvl, -, hset, hlt, hent'⟩ | ⟨-, hent'⟩
      · exact (hkept hg hlvl hset hlt hent' hway' (hold hent hway) hoth).elim
      · exact h r way way' (hold hent hway) (hold hent' hway')

/-- A clock edge leaves the valid entries in their places. -/
theorem Placed.step (h : t.Placed p) (currentAsid : BitVec 16) (tlbi : Bool)
    (fill : Option TlbFill) : (t.step p currentAsid tlbi fill).Placed p where
  turn set := by
    have hpos := p.ways_pos
    unfold MainTlb.step
    cases tlbi with
    | true => exact hpos
    | false =>
      simp only [if_low]
      cases fill4k fill with
      | none => exact h.turn set
      | some f =>
        have hlt := fillWay_lt h.turn currentAsid (p.setOf f.vaddr)
        by_cases hset : set = p.setOf f.vaddr
        · simp only [if_pos hset]
          by_cases hlast : t.fillWay p currentAsid (p.setOf f.vaddr) = p.ways - 1
          · rw [if_pos hlast]
            exact hpos
          · rw [if_neg hlast]
            omega
        · simp only [if_neg hset]
          exact h.turn set
  turnSuperpage := by
    have hpos := p.superpage_pos
    rw [step_superpage]
    unfold TaggedTlb.step
    cases tlbi with
    | true => exact hpos
    | false =>
      simp only [if_low]
      cases fillSuperpage fill with
      | none => exact h.turnSuperpage
      | some f =>
        have hlt := TaggedTlb.fillIndex_lt h.turnSuperpage currentAsid f
        by_cases hlast :
            t.superpage.fillIndex p.superpageEntries currentAsid f = p.superpageEntries - 1
        · simp only [if_pos hlast]
          exact hpos
        · simp only [if_neg hlast]
          omega
  array way set hval := by
    cases tlbi with
    | true => simp [MainTlb.step] at hval
    | false =>
    rcases step_entry p t currentAsid fill way
      set with ⟨f, -, hlvl, hplc, hset, -, hent⟩ | ⟨-, hent⟩
    · rw [hent]
      refine ⟨hplc ▸ fillWay_lt h.turn _ _, hlvl, ?_⟩
      intro va hva
      rw [hset]
      exact setOf_congr p hva
    · rw [hent] at hval ⊢
      exact h.array way set hval
  superpage n hval := by
    rw [step_superpage] at hval
    unfold TaggedTlb.step at hval
    cases tlbi with
    | true => cases hval
    | false =>
      simp only [if_low] at hval
      cases hf : fillSuperpage fill with
      | none =>
        rw [hf] at hval
        exact h.superpage n hval
      | some f =>
        rw [hf] at hval
        by_cases hn : n = t.superpage.fillIndex p.superpageEntries currentAsid f
        · rw [hn]
          exact TaggedTlb.fillIndex_lt h.turnSuperpage _ _
        · simp only [if_neg hn, and_eq_true] at hval
          exact h.superpage n hval.1

end MainTlb

end OpenRV64
