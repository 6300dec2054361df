/-
The translation caches against the walker: whatever hits was walked since the last
invalidation, covers the address, and answers as the walker would.
-/
import OpenRV64.MtlXlate

namespace OpenRV64

open PtwRequest PtwResp Sv39 Sync
open Bool (and_eq_true not_eq_true' or_eq_true or_eq_false_iff not_eq_true)
open Option (some or_eq_some_iff filter_eq_some_iff)
open MicroTlb (step_forall hits)
open Pte (ppn r w x u a d)

section Encoding

theorem getLsbD_pageOf {va : BitVec 64} {k : ℕ} (hk : k < 52) :
    (pageOf va).getLsbD k = va.getLsbD (k + 12) := by
  rw [pageOf, BitVec.getLsbD_extractLsb', decide_eq_true hk, Bool.true_and, Nat.add_comm]

/-- The tag comparison of every level asks whether two addresses share the page. -/
theorem vpnMatch_iff {level : ℕ} (hlvl : level ≤ 2) (va va' : BitVec 64) :
    vpnMatch (pageOf va) (pageOf va') level ↔ SamePage level va va' := by
  have hslice : ∀ low width, low + width = 52 →
      ((pageOf va).extractLsb' low width = (pageOf va').extractLsb' low width ↔
        ∀ k, low + 12 ≤ k → va.getLsbD k = va'.getLsbD k) := by
    intro low width hsum
    constructor
    · intro h k hk
      by_cases hlt : k < 64
      · have hbit := congrArg (fun x => x.getLsbD (k - 12 - low)) h
        simp only [BitVec.getLsbD_extractLsb'] at hbit
        rw [decide_eq_true (by omega : k - 12 - low < width), Bool.true_and, Bool.true_and,
          getLsbD_pageOf (by omega), getLsbD_pageOf (by omega),
          show low + (k - 12 - low) + 12 = k by omega] at hbit
        exact hbit
      · rw [BitVec.getLsbD_of_ge _ _ (by omega), BitVec.getLsbD_of_ge _ _ (by omega)]
    · intro h
      apply BitVec.eq_of_getLsbD_eq
      intro k hk
      rw [BitVec.getLsbD_extractLsb', BitVec.getLsbD_extractLsb', decide_eq_true hk,
        Bool.true_and, Bool.true_and, getLsbD_pageOf (by omega), getLsbD_pageOf (by omega)]
      exact h _ (by omega)
  rw [samePage_iff]
  rcases level_cases hlvl with rfl | rfl | rfl
  · have hwhole : ∀ x : BitVec 52, x.extractLsb' 0 52 = x := fun x => by simp
    rw [vpnMatch_zero, beq_iff_eq, ← hwhole (pageOf va), ← hwhole (pageOf va')]
    exact hslice 0 52 rfl
  · rw [vpnMatch, beq_iff_eq]
    exact hslice 9 43 rfl
  · rw [vpnMatch, beq_iff_eq]
    exact hslice 18 34 rfl

/-- The caches compose an address as the walker does. -/
theorem tlbComposePaddr_eq {level : ℕ} (hlvl : level ≤ 2) (ppn : BitVec 44) (va va' : BitVec 64) :
    tlbComposePaddr (pageOf (pageAddr ppn va level)) va' level = pageAddr ppn va' level := by
  rw [← composePaddr_eq hlvl, ← composePaddr_eq hlvl]
  apply BitVec.eq_of_getLsbD_eq
  intro k hk
  rcases level_cases hlvl with rfl | rfl | rfl
  · simp only [tlbComposePaddr, composePaddr, pageOf]
    grind
  · simp only [tlbComposePaddr, composePaddr, pageOf]
    grind
  · simp only [tlbComposePaddr, composePaddr, pageOf]
    grind

def pteFlags (pte : BitVec 64) : TlbFlags :=
  ⟨Pte.r pte, Pte.w pte, Pte.x pte, Pte.u pte, Pte.a pte, Pte.d pte⟩

theorem permissionOk_eq (r : XlateRequest) (pte : BitVec 64) :
    permissionOk (pteFlags pte) r.access r.priv r.sum r.mxr = r.context.permitsPte pte := by
  rw [Context.permitsPte, Context.permits, ← accessPermission_eq r.context r.access _ _ _ rfl,
    ← privilegePermission_eq r.context r.priv r.access _ rfl rfl,
    ← adPermission_eq r.context r.access _ _ rfl]
  simp only [permissionOk, pteFlags, accessPermission, privilegePermission, adPermission,
    context, Bool.and_assoc]

end Encoding

/-- A request and the walker's response to it. -/
abbrev XlateWalk := XlateRequest × PtwResp

/-- The leaf at which a walk ended, in the tables that `read` gives. -/
structure WalkLeaf where
  q : XlateRequest
  read : ℕ → Addr → Option Pte
  level : ℕ
  pte : Pte
  global : Bool
  mode : q.vmMode = 8
  walk : Sv39.walk read q.context q.rootPpn q.vaddr = .page level pte global

namespace WalkLeaf

variable (w : WalkLeaf)

theorem level_le : w.level ≤ 2 := (level_le_of_walk w.walk).1

def resp : PtwResp := w.q.translate w.read

theorem resp_eq : w.resp = .ofLeaf (pageAddr (ppn w.pte) w.q.vaddr w.level) w.level w.global
      w.pte := by
  rw [resp, PtwRequest.translate, w.mode, if_neg (by decide), if_pos rfl, w.walk]
  rfl

/-- What the walker gives for another request in the same tables. -/
def answer (r : XlateRequest) : PtwResp :=
  ({ r.toPtwRequest with rootPpn := w.q.rootPpn } : PtwRequest).translate w.read

/-- The requests that the leaf may answer. -/
structure Covers (r : XlateRequest) : Prop where
  page : SamePage w.level r.vaddr w.q.vaddr
  mode : r.vmMode = w.q.vmMode
  asid : w.global = true ∨ r.asid = w.q.asid

theorem Covers.answer_eq {w : WalkLeaf} {r : XlateRequest} (h : w.Covers r) :
    w.answer r = .ofOutcome r.vaddr (leafOutcome r.context w.level w.pte w.global) := by
  have hwalk : Sv39.walk w.read r.context w.q.rootPpn r.vaddr =
      leafOutcome r.context w.level w.pte w.global :=
    walk_samePage w.walk h.page.symm
  have hmode : r.vmMode = 8 := h.mode.trans w.mode
  rw [answer, PtwRequest.translate, if_neg (by rw [hmode]; decide), if_pos hmode]
  exact congrArg (ofOutcome r.vaddr) hwalk

end WalkLeaf

/-- The hit is one that the leaf gives: it covers the request, and the answer is the
walker's. -/
structure HitAgrees (w : WalkLeaf) (r : XlateRequest) (hit : TlbHit) : Prop where
  covers : w.Covers r
  paddr : hit.paddr = pageAddr (Pte.ppn w.pte) r.vaddr w.level
  pageFault : hit.pageFault = (w.answer r).pageFault
  same : (w.answer r).pageFault = false → hit.paddr = (w.answer r).paddr

/-- The entry holds the leaf, filled for some address of its page. -/
structure CachesLeaf (w : WalkLeaf) (e : TlbEntry) : Prop where
  page : ∃ va, SamePage w.level va w.q.vaddr ∧ e.vpn = pageOf va ∧
    e.ppn = pageOf (pageAddr (Pte.ppn w.pte) va w.level)
  level : e.level = w.level
  flags : e.flags = pteFlags w.pte
  mode : e.vmMode = w.q.vmMode
  global : e.global = w.global
  asid : w.global = true ∨ e.asid = w.q.asid

section Answer

variable {w : WalkLeaf} {e : TlbEntry} {r : XlateRequest}

theorem CachesLeaf.covers (h : CachesLeaf w e) (hpage : SamePage w.level r.vaddr w.q.vaddr)
    (howned : e.ownedBy r.vmMode r.asid) : w.Covers r := by
  simp only [TlbEntry.ownedBy, and_eq_true, or_eq_true, beq_iff_eq] at howned
  refine ⟨hpage, howned.1.symm.trans h.mode, ?_⟩
  rcases howned.2 with hglobal | hasid
  · exact .inl (h.global ▸ hglobal)
  · exact h.asid.imp_right fun h => hasid.symm.trans h

/-- An answer with the address and the permission of the leaf is the walker's. -/
theorem HitAgrees.of_leaf {hit : TlbHit} (hcovers : w.Covers r)
    (hpaddr : hit.paddr = pageAddr (ppn w.pte) r.vaddr w.level)
    (hflt : hit.pageFault = !r.context.permitsPte w.pte) : HitAgrees w r hit := by
  have hans := hcovers.answer_eq
  rw [leafOutcome] at hans
  refine ⟨hcovers, hpaddr, ?_, ?_⟩
  · rw [hflt, hans]
    cases r.context.permitsPte w.pte <;> rfl
  · intro hnone
    rw [hans] at hnone ⊢
    cases hperm : r.context.permitsPte w.pte with
    | true => exact hpaddr
    | false =>
      rw [hperm] at hnone
      simp [ofOutcome, refuse] at hnone

theorem CachesLeaf.samePage (h : CachesLeaf w e)
    (hmat : vpnMatch e.vpn (pageOf r.vaddr) e.level) : SamePage w.level r.vaddr w.q.vaddr := by
  obtain ⟨va, hva, hvpn, -⟩ := h.page
  rw [hvpn, h.level, vpnMatch_iff w.level_le] at hmat
  exact hmat.symm.trans hva

theorem CachesLeaf.answer (h : CachesLeaf w e) (hmat : vpnMatch e.vpn (pageOf r.vaddr) e.level)
    (howned : e.ownedBy r.vmMode r.asid) : HitAgrees w r (e.answer r) := by
  obtain ⟨va, -, -, hppn⟩ := h.page
  apply HitAgrees.of_leaf (h.covers (h.samePage hmat) howned)
  · rw [TlbEntry.answer, hppn, h.level, tlbComposePaddr_eq w.level_le]
  · rw [TlbEntry.answer, h.flags, permissionOk_eq]

/-- An entry of the array, where the tag is compared as a whole. -/
theorem CachesLeaf.answer4k (h : CachesLeaf w e) (hlvl : w.level = 0)
    (hmat : e.vpn = pageOf r.vaddr) (howned : e.ownedBy r.vmMode r.asid) :
    HitAgrees w r (MainTlb.answer4k e r) := by
  have hvpn : vpnMatch e.vpn (pageOf r.vaddr) e.level := by
    rw [h.level, hlvl, vpnMatch_zero, beq_iff_eq]
    exact hmat
  have hans := h.answer hvpn howned
  have hsame : (MainTlb.answer4k e r).paddr = (e.answer r).paddr := by
    rw [TlbEntry.answer, h.level, hlvl]
    rfl
  exact ⟨hans.covers, hsame.trans hans.paddr, hans.pageFault,
    fun hnone => hsame.trans (hans.same hnone)⟩

end Answer

namespace MtlXlateState

variable {p : TlbParams} {s : MtlXlateState} {i : MtlXlateInput}
  {past : Past MtlXlateState MtlXlateInput}

/-- The walks that have filled since the last invalidation of the main array. -/
def walks : Past MtlXlateState MtlXlateInput → List XlateWalk
  | [] => []
  | (s, i) :: past =>
    if i.tlbiI then []
    else if s.walkFillValid i then (s.ownerReq i, i.ptwResp) :: walks past
    else walks past

/-- A response that fills is the walker's, for some state of the tables, to the captured
request of its walk; a fetch or a load without translation asks for none. -/
def Walked (s : MtlXlateState) (i : MtlXlateInput) : Prop :=
  s.walkFillValid i = true → (∃ read, i.ptwResp = (s.ownerReq i).translate read) ∧
      (s.missOwnerQ ≠ .prefetch → (s.ownerReq i).vmMode ≠ satpModeBare)

/-- One of the walks ended at this leaf. -/
def Found (ws : List XlateWalk) (w : WalkLeaf) : Prop := (w.q, w.resp) ∈ ws

def Holds (ws : List XlateWalk) (e : TlbEntry) : Prop := ∃ w, Found ws w ∧ CachesLeaf w e

theorem Holds.mono {ws ws' : List XlateWalk} {e : TlbEntry} (hsub : ws ⊆ ws')
    (h : Holds ws e) : Holds ws' e := by
  obtain ⟨w, hfnd, hcache⟩ := h
  exact ⟨w, hsub hfnd, hcache⟩

/-- Without a fault the response to a translated request is a leaf. -/
theorem leaf_of_translate {q : XlateRequest} {read : ℕ → Addr → Option Pte}
    (hbare : q.vmMode ≠ satpModeBare) (hpage : (q.translate read).pageFault = false)
    (hacs : (q.translate read).accessFault = false) :
    ∃ w : WalkLeaf, w.q = q ∧ w.resp = q.translate read := by
  have hmode : q.vmMode = 8 := by
    by_contra hne
    rw [PtwRequest.translate, if_neg hbare, if_neg hne] at hpage
    simp [refuse] at hpage
  cases hwalk : Sv39.walk read q.context q.rootPpn q.vaddr with
  | pageFault =>
    rw [PtwRequest.translate, if_neg hbare, if_pos hmode, hwalk] at hpage
    simp [ofOutcome, refuse] at hpage
  | accessFault =>
    rw [PtwRequest.translate, if_neg hbare, if_pos hmode, hwalk] at hacs
    simp [ofOutcome, refuse] at hacs
  | page level pte global =>
    exact ⟨⟨q, read, level, pte, global, hmode, hwalk⟩, rfl, rfl⟩

theorem cachesLeaf_walkFill (w : WalkLeaf) : CachesLeaf w (fill w.q w.resp).entry := by
  rw [w.resp_eq]
  exact ⟨⟨w.q.vaddr, SamePage.refl _ _, rfl, rfl⟩, rfl, rfl, rfl, rfl, .inr rfl⟩

/-- A hit that agrees, with the other fields of the leaf. -/
structure HitHolds (w : WalkLeaf) (r : XlateRequest) (hit : TlbHit) : Prop where
  agrees : HitAgrees w r hit
  level : hit.level = w.level
  flags : hit.flags = pteFlags w.pte
  global : hit.global = w.global

theorem HitHolds.cachesLeaf {w : WalkLeaf} {r : XlateRequest} {hit : TlbHit}
    (h : HitHolds w r hit) : CachesLeaf w (hit.fill r).entry := by
  refine ⟨⟨r.vaddr, h.agrees.covers.page, rfl, ?_⟩, h.level, h.flags, h.agrees.covers.mode,
    h.global, h.agrees.covers.asid⟩
  show pageOf hit.paddr = _
  rw [h.agrees.paddr]

theorem hitHolds_answer {w : WalkLeaf} {e : TlbEntry} {r : XlateRequest}
    (h : CachesLeaf w e) (hmat : vpnMatch e.vpn (pageOf r.vaddr) e.level)
    (howned : e.ownedBy r.vmMode r.asid) : HitHolds w r (e.answer r) :=
  ⟨h.answer hmat howned, h.level, h.flags, h.global⟩

/-- The main array and the superpages hold leaves of the walks. -/
structure MainHolds (ws : List XlateWalk) (t : MainTlb) : Prop where
  array : ∀ way set, (t.entry way set).valid = true →
    Holds ws (t.entry way set) ∧ (t.entry way set).level = 0
  superpage : ∀ n, (t.superpage.entry n).valid = true → Holds ws (t.superpage.entry n)

/-- The valid entries of a cache. -/
def MainStores (t : MainTlb) (e : TlbEntry) : Prop :=
  e.valid = true ∧ ((∃ way set, t.entry way set = e) ∨ ∃ n, t.superpage.entry n = e)

def MicroStores (t : MicroTlb) (e : TlbEntry) : Prop := e.valid = true ∧ ∃ n, t.entry n = e

/-- A hit comes from an entry that holds the leaf of a walk, and it is what each leaf that
the entry holds gives. -/
structure HitBy (ws : List XlateWalk) (e : TlbEntry) (r : XlateRequest) (hit : TlbHit) : Prop where
  holds : Holds ws e
  gives : ∀ w, CachesLeaf w e → HitHolds w r hit

theorem MainHolds.lookup {ws : List XlateWalk} {t : MainTlb} (h : MainHolds ws t)
    {tlbi : Bool} {fill : Option TlbFill} {r : Option XlateRequest} {hit : TlbHit}
    (hhit : t.lookup p tlbi fill r = some hit) :
    ∃ q e, r = some q ∧ MainStores t e ∧ HitBy ws e q hit := by
  obtain ⟨q, hq, ⟨way, hway, rfl⟩ | ⟨n, hn, rfl⟩⟩ := MainTlb.lookup_eq_some hhit
  · simp only [MainTlb.hits, and_eq_true, beq_iff_eq] at hway
    obtain ⟨⟨hval, hvpn⟩, howned⟩ := hway
    obtain ⟨hholds, hlvl⟩ := h.array _ _ hval
    refine ⟨q, _, hq, ⟨hval, .inl ⟨way, _, rfl⟩⟩, hholds, fun w hcache => ?_⟩
    have hz : w.level = 0 := hcache.level.symm.trans hlvl
    exact ⟨hcache.answer4k hz hvpn howned, hz.symm, hcache.flags, hcache.global⟩
  · simp only [TaggedTlb.hits, and_eq_true] at hn
    obtain ⟨⟨hval, hmat⟩, howned⟩ := hn
    exact ⟨q, _, hq, ⟨hval, .inr ⟨n, rfl⟩⟩, h.superpage _ hval,
      fun w hcache => hitHolds_answer hcache hmat howned⟩

theorem MainHolds.step {ws ws' : List XlateWalk} {t : MainTlb} (h : MainHolds ws t)
    {tlbi : Bool} {fill : Option TlbFill} (asid : BitVec 16)
    (hsub : tlbi = false → ws ⊆ ws')
    (hfill : ∀ f, tlbi = false → fill = some f → Holds ws' f.entry) :
    MainHolds ws' (t.step p asid tlbi fill) where
  array := by
    apply MainTlb.step_forall (P := fun e => Holds ws' e ∧ e.level = 0)
    · intro htlbi way set hval
      exact ⟨(h.array way set hval).1.mono (hsub htlbi), (h.array way set hval).2⟩
    · exact fun f htlbi hf hlvl => ⟨hfill f htlbi hf, hlvl⟩
  superpage := by
    rw [MainTlb.step_superpage]
    apply TaggedTlb.step_forall (P := Holds ws')
    · exact fun htlbi n hval => (h.superpage n hval).mono (hsub htlbi)
    · intro f htlbi hf
      exact hfill f htlbi (filter_eq_some_iff.mp hf).1

/-- A small cache holds leaves of the walks. -/
def MicroHolds (ws : List XlateWalk) (t : MicroTlb) : Prop :=
  ∀ n, (t.entry n).valid = true → Holds ws (t.entry n)

/-- A small cache holds entries of one address space. -/
def MicroOwned (vmMode : BitVec 4) (asid : BitVec 16) (t : MicroTlb) : Prop :=
  ∀ n, (t.entry n).valid = true → (t.entry n).ownedBy vmMode asid = true

/-- A hit in a small cache agrees when its entries belong to the space of the request. -/
theorem MicroHolds.lookup {ws : List XlateWalk} {t : MicroTlb} (h : MicroHolds ws t)
    {entries : ℕ} {flush : Bool} {r : Option XlateRequest} {hit : TlbHit}
    (howned : flush = false → ∀ q, r = some q → MicroOwned q.vmMode q.asid t)
    (hhit : t.lookup entries flush r = some hit) :
    ∃ q e, r = some q ∧ MicroStores t e ∧ HitBy ws e q hit := by
  obtain ⟨q, hq, hfl, n, hn, rfl⟩ := MicroTlb.lookup_eq_some hhit
  simp only [hits, and_eq_true] at hn
  obtain ⟨hval, hmat⟩ := hn
  exact ⟨q, _, hq, ⟨hval, n, rfl⟩, h n hval,
    fun w hcache => hitHolds_answer hcache hmat (howned hfl q hq n hval)⟩

/-- A walk for a prefetch is for an address that is translated. -/
def PrefetchWalks (s : MtlXlateState) : Prop :=
  s.missActiveQ = true → s.missOwnerQ = .prefetch →
    s.prefetch.phase = .miss ∧ s.prefetch.req.vmMode ≠ satpModeBare

/-- What every reachable state keeps, whoever asks. -/
structure Filled (past : Past MtlXlateState MtlXlateInput) (s : MtlXlateState) : Prop where
  main : MainHolds (walks past) s.main
  itlb : MicroHolds (walks past) s.itlb
  dtlb : MicroHolds (walks past) s.dtlb
  prefetch : PrefetchWalks s

theorem startWalk_prefetch (h : s.startWalk p i = some .prefetch) :
    s.prefetchXlateLookup i ∧ s.prefetch.req.bare = false ∧ s.itlbLookup p i = none := by
  unfold startWalk at h
  split at h
  · simp at h
  split at h
  · simp at h
  split at h
  · simp at h
  split at h
  · rename_i hneeds
    simp only [needsWalk, and_eq_true] at hneeds
    have hsel := hneeds.1
    unfold selectPrefetch at hsel
    split at hsel
    · rename_i hfree
      simp only [and_eq_true, Option.isNone_iff_eq_none] at hfree
      unfold prefetchReq at hsel
      split at hsel
      · rename_i hreq
        simp only [and_eq_true, not_eq_true'] at hreq
        exact ⟨hreq.1, hreq.2, hfree.2⟩
      · simp at hsel
    · simp at hsel
  · simp at h

theorem prefetchStep_start (h : s.startWalk p i = some .prefetch) :
    s.prefetchStep p i = { s.prefetch with phase := .miss } := by
  obtain ⟨hlook, hbare, hmiss⟩ := startWalk_prefetch h
  have hph : s.prefetch.phase = .lookup := by
    simp only [prefetchXlateLookup, and_eq_true, PrefetchXlatePhase.beq_eq_decide,
      decide_eq_true_eq] at hlook
    exact hlook.1
  simp [prefetchStep, hph, hlook, hbare, hmiss, h]

theorem PrefetchWalks.step (h : PrefetchWalks s) : PrefetchWalks (s.step p i) := by
  intro hact hown
  have hrsp : i.ptwRespValid = false := by
    rw [← not_eq_true]
    intro hv
    simp [MtlXlateState.step, hv] at hact
  cases hstart : s.startWalk p i with
  | some owner =>
    have hown' : owner = .prefetch := by simpa [MtlXlateState.step, hstart] using hown
    subst hown'
    have hbare := (startWalk_prefetch hstart).2.1
    rw [MtlXlateState.step, prefetchStep_start hstart]
    exact ⟨rfl, fun h => absurd (beq_iff_eq.mpr h) (not_eq_true _ ▸ hbare)⟩
  | none =>
    have hwas : s.missActiveQ := by
      simpa [MtlXlateState.step, hstart, hrsp] using hact
    have howned : s.missOwnerQ = .prefetch := by
      simpa [MtlXlateState.step, hstart] using hown
    obtain ⟨hph, hbare⟩ := h hwas howned
    have hkept : s.prefetchStep p i = s.prefetch := by
      simp [prefetchStep, hph, hrsp]
    rw [MtlXlateState.step, hkept]
    exact ⟨hph, hbare⟩

theorem walks_subset (htlbi : i.tlbiI = false) : walks past ⊆ walks ((s, i) :: past) := by
  rw [walks, htlbi, if_low]
  split
  · exact List.subset_cons_self _ _
  · exact List.Subset.refl _

theorem tlbi_of_walkFillValid (h : s.walkFillValid i) : i.tlbiI = false := by
  simp only [walkFillValid, and_eq_true, not_eq_true',
    MtlXlateInput.translationInvalidate, or_eq_false_iff] at h
  exact h.2.1

theorem holds_walkFill (past : List (MtlXlateState × MtlXlateInput))
    (hprefetch : PrefetchWalks s) (hwalked : Walked s i) {f : TlbFill}
    (hfill : s.walkFill i = some f) :
    ∃ w, Found (walks ((s, i) :: past)) w ∧ w.q = s.ownerReq i ∧ CachesLeaf w f.entry := by
  unfold walkFill at hfill
  split at hfill
  · rename_i hval
    obtain ⟨⟨read, hrsp⟩, hbare⟩ := hwalked hval
    have htlbi := tlbi_of_walkFillValid hval
    have hconds := hval
    simp only [walkFillValid, and_eq_true, not_eq_true'] at hconds
    obtain ⟨⟨⟨⟨⟨⟨-, hact⟩, -⟩, -⟩, hpage⟩, hacs⟩, -⟩ := hconds
    have hmode : (s.ownerReq i).vmMode ≠ satpModeBare := by
      by_cases hown : s.missOwnerQ = .prefetch
      · have hreq : s.ownerReq i = s.prefetch.req := by rw [ownerReq, hown]
        rw [hreq]
        exact (hprefetch hact hown).2
      · exact hbare hown
    rw [hrsp] at hpage hacs
    obtain ⟨w, hq, hw⟩ := leaf_of_translate hmode hpage hacs
    have hfnd : Found (walks ((s, i) :: past)) w := by
      rw [Found, walks, htlbi, if_low, if_pos hval, hq, hw, ← hrsp]
      exact List.mem_cons_self
    have hent := cachesLeaf_walkFill w
    rw [hq, hw, ← hrsp, some.inj hfill] at hent
    exact ⟨w, hfnd, hq, hent⟩
  · simp at hfill

/-- Only one side is served by the main array in a cycle. -/
theorem mainReq_of_instruction {r : XlateRequest}
    (h : (s.selectFetch p i).or (s.selectPrefetch p i) = some r) : s.mainReq p i = some r := by
  have hlsu : s.selectLsu p i = none := by
    cases hl : s.selectLsu p i with
    | none => rfl
    | some q =>
      have hfetch : s.selectFetch p i = none := by simp [selectFetch, hl]
      have hprefetch : s.selectPrefetch p i = none := by simp [selectPrefetch, hl]
      rw [hfetch, hprefetch] at h
      simp at h
  rw [mainReq, hlsu, Option.none_or, h]

theorem mainReq_of_lsu {r : XlateRequest} (h : s.selectLsu p i = some r) :
    s.mainReq p i = some r := by
  rw [mainReq, h, Option.some_or]

/-- A refill is the leaf of an earlier walk that covers the request. -/
theorem holds_refill {ws : List XlateWalk} (h : MainHolds ws s.main) {select : Option XlateRequest}
    (hsel : ∀ r, select = some r → s.mainReq p i = some r) {f : TlbFill}
    (hfill : s.refill p i select = some f) :
    i.tlbiI = false ∧ ∃ r, select = some r ∧ Holds ws f.entry ∧ f.vmMode = r.vmMode ∧
      f.asid = r.asid := by
  unfold refill at hfill
  split at hfill
  · rename_i r hit hhit
    split at hfill
    · simp at hfill
    rename_i hinval
    simp only [MtlXlateInput.translationInvalidate, or_eq_true, not_or, not_eq_true] at hinval
    obtain rfl := some.inj hfill
    obtain ⟨q, e, hq, -, ⟨w, hfnd, hcache⟩, hgives⟩ := h.lookup (show s.main.lookup p
      i.tlbiI (s.walkFill i) (s.mainReq p i) = some hit from hhit)
    rw [hsel r rfl] at hq
    obtain rfl := some.inj hq
    exact ⟨hinval.1, r, rfl, ⟨w, hfnd, (hgives w hcache).cachesLeaf⟩, rfl, rfl⟩
  · simp at hfill

theorem microTlbi_false (h : s.microTlbi i = false) : i.tlbiI = false := by
  simp only [microTlbi, MtlXlateInput.translationInvalidate, or_eq_false_iff] at h
  exact h.1.1

/-- A fill of a small cache comes from a walk of its side or from the main array. -/
theorem itlbFill_cases {f : TlbFill} (hfill : s.itlbFill p i = some f) :
    (s.walkFill i = some f ∧ (s.missOwnerQ = .fetch ∨ s.missOwnerQ = .prefetch)) ∨
      s.refill p i ((s.selectFetch p i).or (s.selectPrefetch p i)) = some f := by
  rw [itlbFill, or_eq_some_iff] at hfill
  rcases hfill with hwalk | ⟨-, hrefill⟩
  · unfold itlbWalkFill at hwalk
    split at hwalk
    · rename_i hown
      simp only [XlateOwner.beq_eq_decide, or_eq_true, and_eq_true, decide_eq_true_eq] at hown
      exact .inl ⟨hwalk, hown.imp_left And.left⟩
    · cases hwalk
  · exact .inr hrefill

theorem dtlbFill_cases {f : TlbFill} (hfill : s.dtlbFill p i = some f) :
    (s.walkFill i = some f ∧ s.missOwnerQ = .lsu) ∨ s.refill p i (s.selectLsu p i) = some f := by
  rw [dtlbFill, or_eq_some_iff] at hfill
  rcases hfill with hwalk | ⟨-, hrefill⟩
  · unfold dtlbWalkFill at hwalk
    split at hwalk
    · rename_i hown
      rw [XlateOwner.beq_eq_decide, decide_eq_true_eq] at hown
      exact .inl ⟨hwalk, hown⟩
    · cases hwalk
  · exact .inr hrefill

section

variable (h : Filled past s) (hwalked : Walked s i)

include h hwalked

theorem holds_fill {select : Option XlateRequest}
    (hsel : ∀ r, select = some r → s.mainReq p i = some r) {f : TlbFill}
    (hfill : s.walkFill i = some f ∨ s.refill p i select = some f) :
    Holds (walks ((s, i) :: past)) f.entry := by
  rcases hfill with hwalk | hrefill
  · obtain ⟨w, hfnd, -, hcache⟩ := holds_walkFill past h.prefetch hwalked hwalk
    exact ⟨w, hfnd, hcache⟩
  · obtain ⟨htlbi, -, -, hholds, -⟩ := holds_refill h.main hsel hrefill
    exact hholds.mono (walks_subset htlbi)

/-- A clock edge keeps the caches filled with leaves of walks. -/
theorem Filled.step : Filled ((s, i) :: past) (s.step p i) where
  main := by
    apply h.main.step i.csrSatpAsidI (fun htlbi => walks_subset htlbi)
    intro f _ hf
    obtain ⟨w, hfnd, -, hcache⟩ := holds_walkFill past h.prefetch hwalked hf
    exact ⟨w, hfnd, hcache⟩
  itlb := by
    apply step_forall (P := Holds (walks ((s, i) :: past)))
    · exact fun hfl n hval => (h.itlb n hval).mono (walks_subset (microTlbi_false hfl))
    · exact fun f _ hf => holds_fill h hwalked (fun r hr => mainReq_of_instruction hr)
        ((itlbFill_cases hf).imp_left And.left)
  dtlb := by
    apply step_forall (P := Holds (walks ((s, i) :: past)))
    · exact fun hfl n hval => (h.dtlb n hval).mono (walks_subset (microTlbi_false hfl))
    · exact fun f _ hf => holds_fill h hwalked (fun r hr => mainReq_of_lsu hr)
        ((dtlbFill_cases hf).imp_left And.left)
  prefetch := h.prefetch.step

end

theorem filled_of_run {env : Past MtlXlateState MtlXlateInput → MtlXlateState →
    MtlXlateInput → Prop} (henv : ∀ past s i, env past s i → Walked s i)
    (hrun : Run (mtlXlateCircuit p) env past s) : Filled past s := by
  induction hrun with
  | reset hinit =>
    exact ⟨⟨fun way set h => absurd h (by simp [hinit.array way set]),
      fun n h => absurd h (by simp [hinit.superpage n])⟩,
      fun n h => absurd h (by simp [hinit.itlb n]), fun n h => absurd h (by simp [hinit.dtlb n]),
      fun h => absurd h (by simp [hinit.miss])⟩
  | cycle i _ hpromise ih => exact ih.step (henv _ _ _ hpromise)

/-- A translated request of the address space that `satp` selects. -/
def InSpace (i : MtlXlateInput) (r : XlateRequest) : Prop :=
  r.bare = false → r.vmMode = i.csrSatpModeI ∧ r.asid = i.csrSatpAsidI

/-- `satp` changes only together with an invalidation. -/
def Steady : Past MtlXlateState MtlXlateInput → MtlXlateInput → Prop
  | [], _ => True
  | (_, i') :: _, i =>
    i'.translationInvalidate = false →
      i.csrSatpModeI = i'.csrSatpModeI ∧ i.csrSatpAsidI = i'.csrSatpAsidI

/-- What the surroundings promise: responses are the walker's, `satp` changes with an
invalidation, and every request from outside belongs to the space it selects. -/
structure Promised (past : Past MtlXlateState MtlXlateInput) (s : MtlXlateState)
    (i : MtlXlateInput) : Prop where
  walked : Walked s i
  steady : Steady past i
  fetch : ∀ r, i.fetchXlate = some r → InSpace i r
  missFetch : s.missActiveQ = true → s.missOwnerQ = .fetch → InSpace i i.missFetch
  serial : i.lsuTranslate = true ∨ (s.missActiveQ = true ∧ s.missOwnerQ = .lsu) → InSpace i i.lsuQ
  live : ∀ r, i.lsuXlateReqI = some r → InSpace i r
  prefetch : ∀ r, i.l1iXlateReq = some r → InSpace i r

/-- No prefetch captured under an earlier `satp` is still translated. -/
def PrefetchCurrent (s : MtlXlateState) (i : MtlXlateInput) : Prop :=
  s.prefetch.phase = .lookup ∨ s.prefetch.phase = .miss → InSpace i s.prefetch.req

/-- Every hit in this cycle agrees with the walker: in the main array and the superpages,
and in the small caches of both sides. -/
structure Agrees (p : TlbParams) (past : Past MtlXlateState MtlXlateInput)
    (s : MtlXlateState) (i : MtlXlateInput) : Prop where
  main : ∀ hit, s.mainLookup p i = some hit →
    ∃ r e, s.mainReq p i = some r ∧ MainStores s.main e ∧ HitBy (walks past) e r hit
  itlb : ∀ hit, s.itlbLookup p i = some hit →
    ∃ r e, s.itlbReq i = some r ∧ MicroStores s.itlb e ∧ HitBy (walks past) e r hit
  dtlb : ∀ hit, s.dtlbLookup p i = some hit →
    ∃ r e, dtlbReq i = some r ∧ MicroStores s.dtlb e ∧ HitBy (walks past) e r hit

/-- The small caches hold entries of the space that `satp` selects, whatever it may be in
this cycle. -/
def Owned (past : Past MtlXlateState MtlXlateInput) (s : MtlXlateState) : Prop :=
  ∀ i, Steady past i → MicroOwned i.csrSatpModeI i.csrSatpAsidI s.itlb ∧
      MicroOwned i.csrSatpModeI i.csrSatpAsidI s.dtlb

section

variable {r : XlateRequest}

theorem bare_eq_false : r.bare = false ↔ r.vmMode ≠ satpModeBare := by
  rw [XlateRequest.bare, beq_eq_false_iff_ne]

theorem prefetchReq_eq_some (h : s.prefetchReq i = some r) :
    r = s.prefetch.req ∧ s.prefetch.phase = .lookup ∧ r.bare = false := by
  unfold prefetchReq at h
  split at h
  · rename_i hreq
    simp only [prefetchXlateLookup, and_eq_true, not_eq_true',
      PrefetchXlatePhase.beq_eq_decide, decide_eq_true_eq] at hreq
    obtain rfl := some.inj h
    exact ⟨rfl, hreq.1.1, hreq.2⟩
  · simp at h

theorem fetchReq_eq_some (h : fetchReq i = some r) : i.fetchXlate = some r ∧ r.bare = false := by
  obtain ⟨hr, hbare⟩ := filter_eq_some_iff.mp h
  exact ⟨hr, not_eq_true' _ ▸ hbare⟩

theorem serialReq_eq_some (h : serialReq i = some r) :
    r = i.lsuQ ∧ i.lsuTranslate ∧ r.bare = false := by
  unfold serialReq at h
  split at h
  · rename_i hreq
    simp only [and_eq_true, not_eq_true', or_eq_false_iff] at hreq
    obtain rfl := some.inj h
    exact ⟨rfl, hreq.1, hreq.2.2⟩
  · simp at h

theorem xlateReq_eq_some (h : xlateReq i = some r) : i.lsuXlateReqI = some r ∧ r.bare = false := by
  unfold xlateReq at h
  split at h
  · obtain ⟨hr, hbare⟩ := filter_eq_some_iff.mp h
    exact ⟨hr, not_eq_true' _ ▸ hbare⟩
  · simp at h

end

/-- What the instruction side looks up belongs to the space. -/
theorem instruction_space (henv : Promised past s i) (hcurrent : PrefetchCurrent s i)
    {r : XlateRequest} (h : s.prefetchReq i = some r ∨ fetchReq i = some r) :
    r.vmMode = i.csrSatpModeI ∧ r.asid = i.csrSatpAsidI := by
  rcases h with h | h
  · obtain ⟨rfl, hph, hbare⟩ := prefetchReq_eq_some h
    exact hcurrent (.inl hph) hbare
  · obtain ⟨hr, hbare⟩ := fetchReq_eq_some h
    exact henv.fetch r hr hbare

/-- What the data side looks up belongs to the space. -/
theorem data_space (henv : Promised past s i) {r : XlateRequest}
    (h : xlateReq i = some r ∨ serialReq i = some r) :
    r.vmMode = i.csrSatpModeI ∧ r.asid = i.csrSatpAsidI := by
  rcases h with h | h
  · obtain ⟨hr, hbare⟩ := xlateReq_eq_some h
    exact henv.live r hr hbare
  · obtain ⟨rfl, htranslate, hbare⟩ := serialReq_eq_some h
    exact henv.serial (.inl htranslate) hbare

theorem select_instruction {r : XlateRequest}
    (h : (s.selectFetch p i).or (s.selectPrefetch p i) = some r) :
    s.prefetchReq i = some r ∨ fetchReq i = some r := by
  rw [or_eq_some_iff] at h
  rcases h with h | ⟨-, h⟩
  · unfold selectFetch at h
    split at h
    · exact .inr h
    · simp at h
  · unfold selectPrefetch at h
    split at h
    · exact .inl h
    · simp at h

theorem selectLsu_data {r : XlateRequest} (h : s.selectLsu p i = some r) :
    xlateReq i = some r ∨ serialReq i = some r := by
  rw [selectLsu, or_eq_some_iff] at h
  rcases h with h | ⟨-, h⟩
  · unfold selectXlate at h
    split at h
    · exact .inl h
    · simp at h
  · unfold selectSerial at h
    split at h
    · exact .inr h
    · simp at h

theorem ownedBy_of_space {e : TlbEntry} {r : XlateRequest} {vmMode : BitVec 4}
    {asid : BitVec 16} (hspace : r.vmMode = vmMode ∧ r.asid = asid)
    (hmode : e.vmMode = r.vmMode) (hown : e.global ∨ e.asid = r.asid) : e.ownedBy vmMode asid := by
  simp only [TlbEntry.ownedBy, and_eq_true, or_eq_true, beq_iff_eq]
  exact ⟨hmode.trans hspace.1, hown.imp_right fun h => h.trans hspace.2⟩

/-- The fill of a walk belongs to the space when its request does. -/
theorem walkFill_owned (h : Filled past s) (hwalked : Walked s i)
    (hspace : InSpace i (s.ownerReq i)) {f : TlbFill} (hfill : s.walkFill i = some f) :
    f.entry.ownedBy i.csrSatpModeI i.csrSatpAsidI := by
  obtain ⟨w, -, hq, hcache⟩ := holds_walkFill past h.prefetch hwalked hfill
  have hbare : (s.ownerReq i).bare = false := by
    rw [bare_eq_false, ← hq, w.mode]
    decide
  apply ownedBy_of_space (r := w.q) (by rw [hq]; exact hspace hbare) hcache.mode
  rcases hcache.asid with hglobal | hasid
  · exact .inl (hcache.global.trans hglobal)
  · exact .inr hasid

theorem walkFillValid_active {f : TlbFill} (h : s.walkFill i = some f) : s.missActiveQ := by
  unfold walkFill at h
  split at h
  · rename_i hval
    simp only [walkFillValid, and_eq_true] at hval
    exact hval.1.1.1.1.1.2
  · simp at h

theorem itlbFill_owned (h : Filled past s) (henv : Promised past s i)
    (hcurrent : PrefetchCurrent s i) {f : TlbFill} (hfill : s.itlbFill p i = some f) :
    f.entry.ownedBy i.csrSatpModeI i.csrSatpAsidI := by
  rcases itlbFill_cases hfill with ⟨hwalk, hown⟩ | hrefill
  · have hact := walkFillValid_active hwalk
    apply walkFill_owned h henv.walked _ hwalk
    rcases hown with hown | hown
    · rw [ownerReq, hown]
      exact henv.missFetch hact hown
    · rw [ownerReq, hown]
      exact hcurrent (.inr (h.prefetch hact hown).1)
  · obtain ⟨-, r, hsel, -, hmode, hasid⟩ :=
      holds_refill h.main (fun r hr => mainReq_of_instruction hr) hrefill
    exact ownedBy_of_space (instruction_space henv hcurrent (select_instruction hsel)) hmode
      (.inr hasid)

theorem dtlbFill_owned (h : Filled past s) (henv : Promised past s i) {f : TlbFill}
    (hfill : s.dtlbFill p i = some f) : f.entry.ownedBy i.csrSatpModeI i.csrSatpAsidI := by
  rcases dtlbFill_cases hfill with ⟨hwalk, hown⟩ | hrefill
  · apply walkFill_owned h henv.walked _ hwalk
    rw [ownerReq, hown]
    exact henv.serial (.inr ⟨walkFillValid_active hwalk, hown⟩)
  · obtain ⟨-, r, hsel, -, hmode, hasid⟩ :=
      holds_refill h.main (fun r hr => mainReq_of_lsu hr) hrefill
    exact ownedBy_of_space (data_space henv (selectLsu_data hsel)) hmode (.inr hasid)

/-- A clock edge keeps the small caches in one space. -/
theorem Owned.step (howned : Owned past s) (h : Filled past s) (henv : Promised past s i)
    (hcurrent : PrefetchCurrent s i) : Owned ((s, i) :: past) (s.step p i) := by
  intro i' hsteady
  obtain ⟨hitlb, hdtlb⟩ := howned i henv.steady
  have hsame : s.microTlbi i = false →
      i'.csrSatpModeI = i.csrSatpModeI ∧ i'.csrSatpAsidI = i.csrSatpAsidI := by
    intro hfl
    simp only [microTlbi, or_eq_false_iff] at hfl
    exact hsteady hfl.1
  constructor
  · apply step_forall (P := fun e => e.ownedBy i'.csrSatpModeI i'.csrSatpAsidI)
    · intro hfl n hval
      rw [(hsame hfl).1, (hsame hfl).2]
      exact hitlb n hval
    · intro f hfl hf
      rw [(hsame hfl).1, (hsame hfl).2]
      exact itlbFill_owned h henv hcurrent hf
  · apply step_forall (P := fun e => e.ownedBy i'.csrSatpModeI i'.csrSatpAsidI)
    · intro hfl n hval
      rw [(hsame hfl).1, (hsame hfl).2]
      exact hdtlb n hval
    · intro f hfl hf
      rw [(hsame hfl).1, (hsame hfl).2]
      exact dtlbFill_owned h henv hf

/-- The surroundings, with every prefetch translated under the `satp` it was captured
under. -/
def PromisedCurrent (past : Past MtlXlateState MtlXlateInput) (s : MtlXlateState)
    (i : MtlXlateInput) : Prop :=
  Promised past s i ∧ PrefetchCurrent s i

theorem owned_of_run (hrun : Run (mtlXlateCircuit p) PromisedCurrent past s) : Owned past s := by
  induction hrun with
  | reset hinit =>
    exact fun _ _ => ⟨fun n h => absurd h (by simp [hinit.itlb n]),
      fun n h => absurd h (by simp [hinit.dtlb n])⟩
  | cycle i hrun henv ih =>
    exact ih.step (filled_of_run (fun _ _ _ h => h.1.walked) hrun) henv.1 henv.2

end MtlXlateState

open MtlXlateState

section StalePrefetch

theorem smallTlb_entries_pos : 1 ≤ 4 := by decide

theorem smallTlb_ways_pos : 1 ≤ 2 := by decide

def smallTlb : TlbParams where
  entries := 4
  ways := 2
  superpageEntries := 1
  microEntries := 1
  entries_pos := smallTlb_entries_pos
  ways_pos := smallTlb_ways_pos
  divisible := rfl
  superpage_pos := le_refl 1
  micro_pos := le_refl 1
  ways_pow := ⟨1, rfl⟩
  sets_pow := ⟨1, rfl⟩

def noEntry : TlbEntry := ⟨false, 0, 0, 0, 0, false, 0, ⟨false, false, false, false, false, false⟩⟩

def spaceReq (asid : BitVec 16) : XlateRequest where
  vaddr := 0
  access := accessExec
  priv := 1
  vmMode := 8
  rootPpn := 0
  sum := false
  mxr := false
  asid := asid

/-- A request without translation, for the ports that stand still. -/
def bareReq : XlateRequest := { spaceReq 0 with vmMode := satpModeBare }

def emptyXlate : MtlXlateState where
  main := ⟨fun _ _ => noEntry, fun _ => 0, false, ⟨fun _ => noEntry, 0⟩⟩
  itlb := ⟨fun _ => noEntry, 0⟩
  dtlb := ⟨fun _ => noEntry, 0⟩
  prefetch := ⟨.idle, bareReq, 0, false⟩
  missActiveQ := false
  missOwnerQ := .fetch
  missInvalidatedQ := false

def quietXlate (asid : BitVec 16) : MtlXlateInput where
  tlbiI := false
  contextFlushI := false
  csrSatpModeI := 8
  csrSatpAsidI := asid
  fetchXlate := none
  missFetch := bareReq
  missFetchCancelled := false
  lsuTranslate := false
  lsuPhysicalQ := false
  lsuQ := bareReq
  lsuXlateReqI := none
  tlbiBusy := false
  ptwReqReady := false
  ptwRespValid := false
  ptwResp := .refuse false false false
  l1iXlateReq := none
  l1iXlateRespReady := false
  prefetchPmpComplete := false
  pmpAllowI := false

/-- Every entry of these tables is an executable page of the kernel at zero. -/
def zeroPage : ℕ → Addr → Option Pte := fun _ _ => some 0x4b

/-- A prefetch is captured in space 1; `satp` is written; in space 2 the walk of the
prefetch begins, and its response fills. -/
def stalePrefetch : List MtlXlateInput :=
  [{ quietXlate 1 with l1iXlateReq := some (spaceReq 1) },
   { quietXlate 1 with contextFlushI := true },
   { quietXlate 2 with ptwReqReady := true },
   { quietXlate 2 with
     ptwRespValid := true
     ptwResp := (spaceReq 1).translate zeroPage }]

/-- Then a fetch of space 2 looks up. -/
def fetchAfter : MtlXlateInput := { quietXlate 2 with fetchXlate := some (spaceReq 2) }

theorem inSpace_bareReq (i : MtlXlateInput) : InSpace i bareReq := fun h => absurd h (by decide)

theorem inSpace_none {i : MtlXlateInput} {req : Option XlateRequest} (h : req = none) :
    ∀ r, req = some r → InSpace i r := by
  rintro r rfl
  cases h

theorem inSpace_some {i : MtlXlateInput} {req : Option XlateRequest} {q : XlateRequest}
    (h : req = some q) (hq : InSpace i q) : ∀ r, req = some r → InSpace i r :=
  fun _ hr => Option.mem_unique h hr ▸ hq

/-- The promise for a cycle whose ports hold what `quietXlate` gives them. -/
theorem promised_of_quiet {past : Past MtlXlateState MtlXlateInput} {s : MtlXlateState}
    {i : MtlXlateInput} (hwalked : Walked s i) (hsteady : Steady past i)
    (hfetch : ∀ r, i.fetchXlate = some r → InSpace i r)
    (hprefetch : ∀ r, i.l1iXlateReq = some r → InSpace i r) (hmiss : i.missFetch = bareReq)
    (hserial : i.lsuQ = bareReq) (hlive : i.lsuXlateReqI = none) : Promised past s i where
  walked := hwalked
  steady := hsteady
  fetch := hfetch
  missFetch _ _ := hmiss ▸ inSpace_bareReq i
  serial _ := hserial ▸ inSpace_bareReq i
  live r h := absurd (hlive.symm.trans h) (by simp)
  prefetch := hprefetch

theorem stalePrefetch_run : Run (mtlXlateCircuit smallTlb) Promised
      (exec (mtlXlateCircuit smallTlb) [] emptyXlate stalePrefetch).1
      (exec (mtlXlateCircuit smallTlb) [] emptyXlate stalePrefetch).2 := by
  have hinit : (mtlXlateCircuit smallTlb).Init emptyXlate :=
    ⟨fun _ _ => rfl, fun _ => rfl, fun _ => rfl, fun _ => rfl, rfl, rfl, rfl⟩
  refine .cycle _ (.cycle _ (.cycle _ (.cycle _ (.reset hinit) ?_) ?_) ?_) ?_
  · exact promised_of_quiet absurd_low trivial
      (inSpace_none rfl) (inSpace_some rfl fun _ => ⟨rfl, rfl⟩) rfl rfl rfl
  · exact promised_of_quiet absurd_low (fun _ => ⟨rfl, rfl⟩) (inSpace_none rfl) (inSpace_none rfl)
      rfl rfl rfl
  · exact promised_of_quiet absurd_low (fun h => absurd h (by decide)) (inSpace_none rfl)
      (inSpace_none rfl) rfl rfl rfl
  · exact promised_of_quiet (fun _ => ⟨⟨zeroPage, rfl⟩, fun h => absurd rfl h⟩)
      (fun _ => ⟨rfl, rfl⟩) (inSpace_none rfl)
      (inSpace_none rfl) rfl rfl rfl

/-- The same prefetch without a write of `satp`. -/
def freshPrefetch : List MtlXlateInput :=
  [{ quietXlate 1 with l1iXlateReq := some (spaceReq 1) },
   { quietXlate 1 with ptwReqReady := true },
   { quietXlate 1 with
     ptwRespValid := true
     ptwResp := (spaceReq 1).translate zeroPage }]

/-- Then a fetch of the same space looks up. -/
def fetchSame : MtlXlateInput := { quietXlate 1 with fetchXlate := some (spaceReq 1) }

theorem freshPrefetch_run : Run (mtlXlateCircuit smallTlb) PromisedCurrent
      (exec (mtlXlateCircuit smallTlb) [] emptyXlate freshPrefetch).1
      (exec (mtlXlateCircuit smallTlb) [] emptyXlate freshPrefetch).2 := by
  have hinit : (mtlXlateCircuit smallTlb).Init emptyXlate :=
    ⟨fun _ _ => rfl, fun _ => rfl, fun _ => rfl, fun _ => rfl, rfl, rfl, rfl⟩
  refine .cycle _ (.cycle _ (.cycle _ (.reset hinit) ⟨?_, ?_⟩) ⟨?_, ?_⟩) ⟨?_, ?_⟩
  · exact promised_of_quiet absurd_low trivial
      (inSpace_none rfl) (inSpace_some rfl fun _ => ⟨rfl, rfl⟩) rfl rfl rfl
  · exact fun h => absurd h (by decide)
  · exact promised_of_quiet absurd_low (fun _ => ⟨rfl, rfl⟩) (inSpace_none rfl) (inSpace_none rfl)
      rfl rfl rfl
  · exact fun _ _ => ⟨rfl, rfl⟩
  · exact promised_of_quiet (fun _ => ⟨⟨zeroPage, rfl⟩, fun h => absurd rfl h⟩)
      (fun _ => ⟨rfl, rfl⟩) (inSpace_none rfl)
      (inSpace_none rfl) rfl rfl rfl
  · exact fun _ _ => ⟨rfl, rfl⟩

end StalePrefetch

end OpenRV64
