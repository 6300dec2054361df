/-
In what order the window lets its instructions go: memory operations and conditional
branches in program order, nothing past a persistent hard instruction, and the memory
operations that must not be undone only behind resolved controls.
-/
import OpenRV64.WindowAge

namespace OpenRV64

open ModularAge RingSegment WindowState
open List (range range' range_eq_range' mem_range mem_iff_getElem?)
open Bool (and_eq_true not_eq_true')

/-- A scan that overwrites what it found keeps the last match. -/
theorem foldl_last_write {α β : Type} (l : List α) (c : α → Bool) (g : α → β) (v : β) :
    l.foldl (fun v x => if c x then g x else v) v =
      match (l.filter c).getLast? with
      | some x => g x
      | none => v := by
  induction l generalizing v with
  | nil => rfl
  | cons x rest ih =>
    rw [List.foldl_cons, ih]
    by_cases hx : c x
    · rw [List.filter_cons_of_pos hx, if_pos hx, List.getLast?_cons]
      cases (rest.filter c).getLast? <;> rfl
    · rw [List.filter_cons_of_neg hx, if_neg hx]

/-- The part of a turn around the ring that comes after one of its slots. -/
theorem drop_dropWhile_slots {depth head j : Nat} (hhead : head < depth) (hj : j < depth) :
    (((range depth).map (slot depth head)).dropWhile (· != slot depth head j)).drop 1 =
      (range' (j + 1) (depth - (j + 1))).map (slot depth head) := by
  have hsplit : range depth = range j ++ j :: range' (j + 1) (depth - (j + 1)) := by
    rw [← List.range'_succ, range_eq_range', range_eq_range',
      show range' j (depth - (j + 1) + 1) = range' (0 + j) (depth - (j + 1) + 1) by
        rw [Nat.zero_add], List.range'_append_1]
    congr 1
    omega
  rw [hsplit, List.map_append, List.dropWhile_append_of_pos, List.map_cons,
    List.dropWhile_cons_of_neg, List.drop_one, List.tail_cons]
  · simp
  · intro x hx
    obtain ⟨k, hk, rfl⟩ := List.mem_map.mp hx
    rw [mem_range] at hk
    rw [bne_iff_ne, ne_eq, slot_inj_iff hhead (by omega) hj]
    omega

namespace WindowState

variable {p : WindowParams} {s : WindowState p} {i : WindowInput p} {n : Nat}

/-- The scan goes around the ring from the retirement head. -/
theorem scanSlots_eq (hhead : i.nextRetireSlotI < p.depth) :
    scanSlots i = (range p.depth).map (slot p.depth i.nextRetireSlotI) := by
  apply List.map_congr_left
  intro offset hoffset
  rw [mem_range] at hoffset
  rw [slot_eq hhead hoffset.le]
  split <;> split <;> first | rfl | omega

theorem selectEx0_some (h : s.selectEx0 i = some n) : s.eligible i n := by
  rw [selectEx0, Option.or_eq_some_iff] at h
  rcases h with h | ⟨-, h⟩
  · exact (selectBy_some h).2.1
  · have hn := List.find?_some h
    simp only [and_eq_true] at hn
    exact hn.1.1

theorem selectMem2_some (h : s.selectMem2 i = some n) :
    ∃ first, s.selectMem i = some first ∧ s.nextUnissuedMem i first = some n ∧
      s.memPairEligible i n ∧ (s.entry n).payload.isMem1Op ≠ (s.entry first).payload.isMem1Op := by
  rw [selectMem2, Option.bind_eq_some_iff] at h
  obtain ⟨first, hfst, hn⟩ := h
  rw [Option.filter_eq_some_iff] at hn
  obtain ⟨hnxt, hpair⟩ := hn
  rw [and_eq_true, bne_iff_ne] at hpair
  exact ⟨first, hfst, hnxt, hpair⟩

/-- An instruction that issues is eligible, or is the second of a memory pair that both
pipes take. -/
theorem issues_cases (h : s.issues i n) :
    s.eligible i n ∨ ∃ first, s.selectMem i = some first ∧ s.nextUnissuedMem i first = some n ∧
        s.memPairEligible i n ∧ s.memPipe n ≠ s.memPipe first ∧
        i.pipeReadyI (s.memPipe first) ∧ i.pipeReadyI (s.memPipe n) := by
  have hmem : ∀ pipe, s.memEntry i pipe = some n → s.eligible i n ∨
      ∃ first, s.selectMem i = some first ∧ s.nextUnissuedMem i first = some n ∧
        s.memPairEligible i n ∧ s.memPipe n ≠ s.memPipe first ∧
        i.pipeReadyI (s.memPipe first) ∧ i.pipeReadyI (s.memPipe n) := by
    intro pipe hpipe
    rw [memEntry, Option.or_eq_some_iff] at hpipe
    rcases hpipe with hsecond | ⟨-, hfst⟩
    · rw [Option.filter_eq_some_iff] at hsecond
      obtain ⟨hsecond, hacc⟩ := hsecond
      obtain ⟨first, hfst, hnxt, hpair, hclass⟩ := selectMem2_some hsecond
      rw [pairAccepted, hfst, hsecond, and_eq_true, and_eq_true] at hacc
      refine .inr ⟨first, hfst, hnxt, hpair, ?_, hacc.2⟩
      rw [memPipe, memPipe]
      cases h1 : (s.entry n).payload.isMem1Op <;>
        cases h2 : (s.entry first).payload.isMem1Op <;> simp_all
    · rw [Option.filter_eq_some_iff] at hfst
      exact .inl (selectBy_some hfst.1).2.1
  simp only [issues, Bool.or_eq_true, and_eq_true, beq_iff_eq] at h
  rcases h with ((h | h) | h) | h
  · exact .inl (selectEx0_some h.1)
  · exact .inl (selectEx1_some h.1).2.1
  · exact hmem .mem0 h.1
  · exact hmem .mem1 h.1

theorem baseEligible_of_issues (h : s.issues i n) :
    s.baseEligible i n ∧ s.controlBlocked i n = false := by
  rcases issues_cases h with heligible | ⟨-, -, -, hpair, -⟩
  · simp only [eligible, and_eq_true, not_eq_true'] at heligible
    exact heligible.1
  · simp only [memPairEligible, and_eq_true, not_eq_true'] at hpair
    exact ⟨hpair.1.1, hpair.2⟩

/-- The first of a memory pair goes when the second does. -/
theorem issues_first {first : Nat} (hsel : s.selectMem i = some first)
    (hsecond : ∀ m, s.selectMem2 i = some m → s.memPipe m ≠ s.memPipe first)
    (hrdy : i.pipeReadyI (s.memPipe first)) : s.issues i first := by
  have hent : s.memEntry i (s.memPipe first) = some first := by
    have hnone : ((s.selectMem2 i).filter fun m =>
        s.memPipe m == s.memPipe first && s.pairAccepted i) = none := by
      rw [Option.filter_eq_none_iff]
      intro m hm
      rw [and_eq_true, beq_iff_eq, not_and]
      exact fun hpipe => absurd hpipe (hsecond m hm)
    rw [memEntry, hnone, Option.none_or, hsel, Option.filter_some, beq_self_eq_true, if_pos rfl]
  have hpipe : s.memPipe first = .mem0 ∨ s.memPipe first = .mem1 := by
    rw [memPipe]
    split
    · exact .inr rfl
    · exact .inl rfl
  rcases hpipe with hpipe | hpipe
  · rw [hpipe] at hent hrdy
    simp [issues, pipeEntry, hent, hrdy]
  · rw [hpipe] at hent hrdy
    simp [issues, pipeEntry, hent, hrdy]

end WindowState

/-- A store, an atomic, or a load that may not be undone. -/
def WindowState.isProtected {p : WindowParams} (s : WindowState p) (i : WindowInput p)
    (n : Nat) : Bool :=
  (s.entry n).payload.isMem &&
    ((s.entry n).payload.memWrite || rvOpcode (s.entry n).payload.instr == opcodeAmo ||
      !(s.entry n).payload.isSpeculativeLoadCandidate p i.translationBypassI
        (s.srcNow i n .rs1).data)

/-- A conditional branch or direct JAL without its result. -/
def WindowState.isUnresolved {p : WindowParams} (s : WindowState p) (n : Nat) : Bool :=
  (s.entry n).payload.isGatingControl && !(s.entry n).resultReady

namespace BackendTracked

variable {p : WindowParams} {t : BackendTracked p} {i : BackendInput p}

/-- The order in which the instructions that issue in this cycle may do so. -/
structure IssueOrdered (t : BackendTracked p) (i : BackendInput p) : Prop where
  /-- An older unissued memory operation issues in the same cycle, is the one right before,
  and both pipes accept. -/
  memory : ∀ e ∈ t.ledger.live, t.window.issues (t.windowInput i) e.slot = true →
    (t.program e.seq).isMem = true → ∀ f ∈ t.ledger.live, f.seq < e.seq →
    (t.program f.seq).isMem = true → (t.window.entry f.slot).issued = false →
      t.window.issues (t.windowInput i) f.slot = true ∧
        i.pipeReadyI (t.window.memPipe f.slot) = true ∧
        i.pipeReadyI (t.window.memPipe e.slot) = true ∧
        ∀ g ∈ t.ledger.live, f.seq < g.seq → g.seq < e.seq →
          (t.program g.seq).isMem = true → (t.window.entry g.slot).issued = true
  conditional : p.enableSpeculation = true → ∀ e ∈ t.ledger.live,
    t.window.issues (t.windowInput i) e.slot = true →
    (t.program e.seq).isEarlyConditionalBranch = true → ∀ f ∈ t.ledger.live, f.seq < e.seq →
    (t.program f.seq).isEarlyConditionalBranch = true → (t.window.entry f.slot).issued = true
  persistent : ∀ e ∈ t.ledger.live, t.window.issues (t.windowInput i) e.slot = true →
    ∀ f ∈ t.ledger.live, f.seq < e.seq → (t.program f.seq).isPersistentHard = false
  atHead : ∀ e ∈ t.ledger.live, t.window.issues (t.windowInput i) e.slot = true →
    (t.program e.seq).isPersistentHard = true → t.ledger.live.head? = some e
  guarded : ∀ e ∈ t.ledger.live, t.window.issues (t.windowInput i) e.slot = true →
    t.window.isProtected (t.windowInput i) e.slot = true → ∀ f ∈ t.ledger.live,
    f.seq < e.seq → t.window.isUnresolved f.slot = false

/-- Of what could issue, no memory operation that must stay behind an unresolved older
control is an atomic that only reads, and of the controls older than it the one in the
highest slot is unresolved. -/
def ControlsSeen (t : BackendTracked p) (i : BackendInput p) : Prop :=
  ∀ e ∈ t.ledger.live, t.window.baseEligible (t.windowInput i) e.slot = true →
    t.window.isProtected (t.windowInput i) e.slot = true →
    ∀ f ∈ t.ledger.live, f.seq < e.seq → t.window.isUnresolved f.slot = true →
      (t.window.entry e.slot).payload.isSpeculativeLoadCandidate p i.translationBypassI
          (t.window.srcNow (t.windowInput i) e.slot .rs1).data = false ∧
        ∃ g ∈ t.ledger.live, g.seq < e.seq ∧ t.window.isUnresolved g.slot = true ∧
          ∀ k ∈ t.ledger.live, k.seq < e.seq →
            (t.window.entry k.slot).payload.isGatingControl = true → k.slot ≤ g.slot

section Older

variable (h : Coupled t) (hbounded : t.Bounded i)

include h hbounded in
/-- Older by identifier is older in program order. -/
theorem isOlder_eq {e f : RetireEntry} (he : e ∈ t.ledger.live) (hf : f ∈ t.ledger.live) :
    t.window.isOlder e.slot f.slot = decide (f.seq < e.seq) := by
  have hne : e.seq < t.ledger.next := h.retire.accounted.live_seq_lt he
  have hnf : f.seq < t.ledger.next := h.retire.accounted.live_seq_lt hf
  have hwe := hbounded.window e he
  have hwf := hbounded.window f hf
  rw [isOlder, (h.entry f hf).1, (h.entry e he).2.1, (h.entry f hf).2.1,
    isYounger_idOf p.idWidth_pos (by omega) (by omega), Bool.true_and]

include h hbounded in
/-- A flag that scans the older entries speaks of the older instructions. -/
theorem any_older (g : Nat → Bool) {e : RetireEntry} (he : e ∈ t.ledger.live) :
    ((range p.depth).any fun o => t.window.isOlder e.slot o && g o) = false ↔
      ∀ f ∈ t.ledger.live, f.seq < e.seq → g f.slot = false := by
  rw [List.any_eq_false]
  constructor
  · intro hall f hf hlt
    have hnone := hall f.slot (mem_range.mpr (h.slot_lt hf))
    rw [isOlder_eq h hbounded he hf, decide_eq_true hlt, Bool.true_and] at hnone
    exact Bool.not_eq_true _ ▸ hnone
  · intro hall o ho hcon
    rw [mem_range] at ho
    rw [and_eq_true] at hcon
    have hval := hcon.1
    rw [isOlder, and_eq_true] at hval
    obtain ⟨f, hf, rfl⟩ := h.resident ho hval.1
    rw [isOlder_eq h hbounded he hf, decide_eq_true_iff] at hcon
    rw [hall f hf hcon.1] at hcon
    exact Bool.false_ne_true hcon.2

include h hbounded in
theorem olderPersistentHard_false {e : RetireEntry} (he : e ∈ t.ledger.live)
    (hnone : t.window.olderPersistentHard e.slot = false) {f : RetireEntry}
    (hf : f ∈ t.ledger.live) (hlt : f.seq < e.seq) :
    (t.program f.seq).isPersistentHard = false := by
  have hall := (any_older h hbounded
    (fun o => (t.window.entry o).payload.isPersistentHard) he).mp hnone f hf hlt
  rwa [(h.entry f hf).2.2] at hall

include h hbounded in
theorem olderUnissuedMem_false {e : RetireEntry} (he : e ∈ t.ledger.live)
    (hnone : t.window.olderUnissuedMem e.slot = false) {f : RetireEntry}
    (hf : f ∈ t.ledger.live) (hlt : f.seq < e.seq) (hmem : (t.program f.seq).isMem) :
    (t.window.entry f.slot).issued := by
  have hall := (any_older h hbounded
    (fun o => !(t.window.entry o).issued && (t.window.entry o).payload.isMem) he).mp
      (by simpa only [olderUnissuedMem, Bool.and_assoc] using hnone) f hf hlt
  rw [(h.entry f hf).2.2, hmem, Bool.and_true, Bool.not_eq_false'] at hall
  exact hall

include h hbounded in
theorem olderUnresolvedConditional_false {e : RetireEntry} (he : e ∈ t.ledger.live)
    (hnone : t.window.olderUnresolvedConditional e.slot = false) {f : RetireEntry}
    (hf : f ∈ t.ledger.live) (hlt : f.seq < e.seq)
    (hearly : (t.program f.seq).isEarlyConditionalBranch) : (t.window.entry f.slot).issued := by
  have hall := (any_older h hbounded (fun o => !(t.window.entry o).issued &&
    (t.window.entry o).payload.isEarlyConditionalBranch) he).mp
      (by simpa only [olderUnresolvedConditional, Bool.and_assoc] using hnone)
      f hf hlt
  rw [(h.entry f hf).2.2, hearly, Bool.and_true, Bool.not_eq_false'] at hall
  exact hall

include h hbounded in
/-- The flag for older controls tells whether the one in the highest slot is live. -/
theorem olderLiveControl_eq {e g : RetireEntry} (he : e ∈ t.ledger.live)
    (hg : g ∈ t.ledger.live) (hlt : g.seq < e.seq)
    (hgating : (t.window.entry g.slot).payload.isGatingControl)
    (hlast : ∀ k ∈ t.ledger.live, k.seq < e.seq →
      (t.window.entry k.slot).payload.isGatingControl → k.slot ≤ g.slot) :
    t.window.olderLiveControl e.slot =
      (!p.resultReadyControlRelease || !(t.window.entry g.slot).resultReady) := by
  have hlastFilter : ((range p.depth).filter fun o => t.window.isOlder e.slot o &&
      (t.window.entry o).payload.isGatingControl).getLast? = some g.slot := by
    have hmat : (t.window.isOlder e.slot g.slot &&
        (t.window.entry g.slot).payload.isGatingControl) := by
      rw [isOlder_eq h hbounded he hg, decide_eq_true hlt, hgating]
      rfl
    have hslot := h.slot_lt hg
    have hsplit : range p.depth = range (g.slot + 1) ++
        range' (g.slot + 1) (p.depth - (g.slot + 1)) := by
      rw [range_eq_range', range_eq_range', show range' (g.slot + 1) (p.depth - (g.slot + 1)) =
          range' (0 + (g.slot + 1)) (p.depth - (g.slot + 1)) by rw [Nat.zero_add],
        List.range'_append_1]
      congr 1
      omega
    have hrest : (range' (g.slot + 1) (p.depth - (g.slot + 1))).filter (fun o =>
        t.window.isOlder e.slot o && (t.window.entry o).payload.isGatingControl) = [] := by
      rw [List.filter_eq_nil_iff]
      intro o ho hcon
      have horange := List.mem_range'_1.mp ho
      rw [and_eq_true] at hcon
      have hval := hcon.1
      rw [isOlder, and_eq_true] at hval
      obtain ⟨k, hk, rfl⟩ := h.resident (by omega) hval.1
      rw [isOlder_eq h hbounded he hk, decide_eq_true_iff] at hcon
      have := hlast k hk hcon.1 hcon.2
      omega
    rw [hsplit, List.filter_append, hrest, List.append_nil, List.range_succ,
      List.filter_append, List.filter_singleton, hmat]
    simp
  rw [olderLiveControl, foldl_last_write, hlastFilter]

include h hbounded in
/-- Nothing that must stay behind an unresolved control issues in such a state. -/
theorem controlBlocked_of_unresolved (hseen : ControlsSeen t i) {e f : RetireEntry}
    (he : e ∈ t.ledger.live) (hf : f ∈ t.ledger.live) (hlt : f.seq < e.seq)
    (hbase : t.window.baseEligible (t.windowInput i) e.slot)
    (hprotected : t.window.isProtected (t.windowInput i) e.slot)
    (hunresolved : t.window.isUnresolved f.slot) :
    t.window.controlBlocked (t.windowInput i) e.slot := by
  obtain ⟨hcand, g, hg, hgl, hgate, hlast⟩ := hseen e he hbase hprotected f hf hlt hunresolved
  rw [isUnresolved, and_eq_true, not_eq_true'] at hgate
  have hlive := olderLiveControl_eq h hbounded he hg hgl hgate.1 hlast
  rw [hgate.2, Bool.not_false, Bool.or_true] at hlive
  rw [isProtected, and_eq_true] at hprotected
  rw [controlBlocked, hprotected.1, hlive]
  change (true && true && !(t.window.entry e.slot).payload.isSpeculativeLoadCandidate p
    i.translationBypassI _)
  rw [hcand]
  rfl

include h hbounded in
/-- The instruction that is to retire next is the oldest one. -/
theorem nextRetire_head {e : RetireEntry} (he : e ∈ t.ledger.live)
    (hid : (t.window.entry e.slot).id = t.nextRetireIdO) : t.ledger.live.head? = some e := by
  obtain ⟨k, hk⟩ := mem_iff_getElem?.mp he
  have hkl := (List.getElem?_eq_some_iff.mp hk).1
  have hlen := h.length
  obtain ⟨first, hfst⟩ : ∃ first, t.ledger.live[0]? = some first :=
    ⟨_, List.getElem?_eq_getElem (show 0 < t.ledger.live.length by omega)⟩
  obtain ⟨hplc, hold, -⟩ := h.retire.entry 0 first hfst
  have hslot : slot p.depth t.queue.headQ 0 = t.queue.headQ := slot_zero h.head
  have hval : t.queue.validAt t.queue.headQ := by
    have hat := h.retire.validAt (show 0 < p.depth by omega)
    change t.queue.validAt (slot p.depth t.queue.headQ 0) = _ at hat
    rw [hslot] at hat
    rw [hat]
    exact decide_eq_true (show 0 < t.ledger.live.length by omega)
  have hfl := List.mem_of_getElem? hfst
  have hne : e.seq < t.ledger.next := h.retire.accounted.live_seq_lt he
  have hnf : first.seq < t.ledger.next := h.retire.accounted.live_seq_lt hfl
  have hwe := hbounded.window e he
  have hwf := hbounded.window first hfl
  have hnxt : t.nextRetireIdO = idOf p.idWidth first.seq := by
    have hfirstId : t.queue.idQ t.queue.headQ = idOf p.idWidth first.seq := by
      rw [← hslot, ← show first.slot = slot p.depth t.queue.headQ 0 from hplc]
      exact hold
    exact (if_pos hval).trans hfirstId
  rw [(h.entry e he).2.1, hnxt] at hid
  have hoe := isYounger_idOf p.idWidth_pos (a := e.seq) (b := first.seq) (by omega) (by omega)
  have heo := isYounger_idOf p.idWidth_pos (a := first.seq) (b := e.seq) (by omega) (by omega)
  rw [hid, isYounger_self, eq_comm, decide_eq_false_iff_not] at hoe heo
  rw [List.head?_eq_getElem?, hfst, h.seq_inj he hfl (by omega)]

include h in
/-- The second of a memory pair comes after the first, and what lies between the two has
issued. -/
theorem nextUnissuedMem_between {e g : RetireEntry} (he : e ∈ t.ledger.live)
    (hg : g ∈ t.ledger.live)
    (hnxt : t.window.nextUnissuedMem (t.windowInput i) g.slot = some e.slot) :
    g.seq < e.seq ∧ ∀ f ∈ t.ledger.live, g.seq < f.seq → f.seq < e.seq →
      (t.program f.seq).isMem → (t.window.entry f.slot).issued := by
  obtain ⟨j, hj⟩ := mem_iff_getElem?.mp hg
  obtain ⟨k, hk⟩ := mem_iff_getElem?.mp he
  have hlen := h.length
  have hjl := (List.getElem?_eq_some_iff.mp hj).1
  have hkl := (List.getElem?_eq_some_iff.mp hk).1
  have hhead : (t.windowInput i).nextRetireSlotI < p.depth := h.head
  have hheadQ : (t.windowInput i).nextRetireSlotI = t.queue.headQ := rfl
  rw [nextUnissuedMem, scanSlots_eq hhead, hheadQ, h.place hj,
    drop_dropWhile_slots h.head (show j < p.depth by omega), List.find?_map,
    Option.map_eq_some_iff] at hnxt
  obtain ⟨x, hx, hslot⟩ := hnxt
  obtain ⟨-, hrng, hbef⟩ := List.find?_range'_eq_some.mp hx
  have hxrange := List.mem_range'_1.mp hrng
  rw [h.place hk] at hslot
  have hxk := slot_inj h.head (show x < p.depth by omega) (show k < p.depth by omega) hslot
  have hinv := h.retire.accounted
  refine ⟨(hinv.live_seq_lt_iff hj hk).mpr (by omega), ?_⟩
  intro f hf hgf hfe hmem
  obtain ⟨m, hm⟩ := mem_iff_getElem?.mp hf
  have hgm := (hinv.live_seq_lt_iff hj hm).mp hgf
  have hmk := (hinv.live_seq_lt_iff hm hk).mp hfe
  have hnone := hbef m (by omega) (by omega)
  rw [Function.comp_apply, ← h.place hm, (h.entry f hf).1, (h.entry f hf).2.2, hmem,
    Bool.true_and, Bool.and_true, Bool.not_not] at hnone
  exact hnone

include h hbounded in
/-- A memory operation that issues with an older one unissued is the second of a pair. -/
theorem memory_order {e f : RetireEntry} (he : e ∈ t.ledger.live)
    (hissues : t.window.issues (t.windowInput i) e.slot)
    (hmem : (t.program e.seq).isMem) (hf : f ∈ t.ledger.live) (hlt : f.seq < e.seq)
    (hfmem : (t.program f.seq).isMem)
    (hunissued : (t.window.entry f.slot).issued = false) :
    t.window.issues (t.windowInput i) f.slot ∧ i.pipeReadyI (t.window.memPipe f.slot) ∧
      i.pipeReadyI (t.window.memPipe e.slot) ∧ ∀ g ∈ t.ledger.live, f.seq < g.seq → g.seq < e.seq →
        (t.program g.seq).isMem → (t.window.entry g.slot).issued := by
  rcases issues_cases hissues with
    heligible | ⟨first, hfst, hnxt, hpair, hpipe, hrdy, hrdy'⟩
  · rw [eligible, (h.entry e he).2.2, hmem, Bool.true_and, and_eq_true, not_eq_true'] at heligible
    rw [olderUnissuedMem_false h hbounded he heligible.2 hf hlt hfmem] at hunissued
    cases hunissued
  · obtain ⟨hscan, heligible, hisMem⟩ := selectBy_some hfst
    obtain ⟨hval, hiss⟩ := valid_of_eligible heligible
    obtain ⟨g, hg, rfl⟩ := h.resident (mem_scanSlots h.head hscan) hval
    rw [eligible, hisMem, Bool.true_and, and_eq_true, not_eq_true'] at heligible
    obtain ⟨hge, hbetween⟩ := nextUnissuedMem_between h he hg hnxt
    have hfg : f = g := by
      rcases Nat.lt_trichotomy f.seq g.seq with hcase | hcase | hcase
      · rw [olderUnissuedMem_false h hbounded hg heligible.2 hf hcase hfmem] at hunissued
        cases hunissued
      · exact h.seq_inj hf hg hcase
      · rw [hbetween f hf hcase hlt hfmem] at hunissued
        cases hunissued
    subst hfg
    refine ⟨?_, hrdy, hrdy', hbetween⟩
    apply issues_first hfst ?_ hrdy
    intro m hm
    obtain ⟨other, hoth, hm', -⟩ := selectMem2_some hm
    rw [hfst] at hoth
    obtain rfl := Option.some.inj hoth
    rw [hnxt] at hm'
    obtain rfl := Option.some.inj hm'
    exact hpipe

end Older

/-- In every run within the span of the identifiers the window lets its instructions go
in order, the operations behind unresolved controls as far as those are seen. -/
theorem issue_ordered {past : Sync.Past (BackendTracked p) (BackendInput p)}
    (hrun : Sync.Run (issueBackend p) (boundedEnv p) past t) (hbounded : t.Bounded i)
    (hseen : ControlsSeen t i) : IssueOrdered t i := by
  have h := coupled_of_run hrun
  have hbase : ∀ e ∈ t.ledger.live, t.window.issues (t.windowInput i) e.slot = true →
      t.window.baseEligible (t.windowInput i) e.slot = true :=
    fun e _ hissues => (baseEligible_of_issues hissues).1
  constructor
  · intro e he hissues hmem f hf hlt hfmem hunissued
    exact memory_order h hbounded he hissues hmem hf hlt hfmem hunissued
  · intro hspec e he hissues hearly f hf hlt hfearly
    have hb := hbase e he hissues
    simp only [baseEligible, Bool.and_eq_true, Bool.not_eq_true',
      (h.entry e he).2.2, hspec, hearly, Bool.true_and] at hb
    exact olderUnresolvedConditional_false h hbounded he hb.2 hf hlt hfearly
  · intro e he hissues f hf hlt
    have hb := hbase e he hissues
    simp only [baseEligible, Bool.and_eq_true, Bool.not_eq_true'] at hb
    exact olderPersistentHard_false h hbounded he hb.1.1.2 hf hlt
  · intro e he hissues hhard
    have hb := hbase e he hissues
    simp only [baseEligible, Bool.and_eq_true, Bool.not_eq_true',
      (h.entry e he).2.2, hhard, Bool.true_and, bne_eq_false_iff_eq] at hb
    exact nextRetire_head h hbounded he hb.1.2
  · intro e he hissues hprotected f hf hlt
    by_contra hcon
    have hunresolved : t.window.isUnresolved f.slot = true := Bool.not_eq_false _ ▸ hcon
    have hblocked := controlBlocked_of_unresolved h hbounded hseen he hf hlt
      (hbase e he hissues) hprotected hunresolved
    rw [(baseEligible_of_issues hissues).2] at hblocked
    cases hblocked

/-! ## A store behind two controls -/

theorem smallWindow_pow : 2 ^ clog2 8 = 8 := by decide

theorem smallWindow_lt : 8 < 2 ^ (instrIdWidth - 1) := by decide

/-- A speculative window of eight entries. -/
def smallWindow : WindowParams where
  enableSpeculation := true
  depth := 8
  cacheableBase := 0
  cacheableSize := 0
  resultReadyControlRelease := true
  idWidth := instrIdWidth
  depth_pow := smallWindow_pow
  depth_lt := smallWindow_lt

/-- A value for x5, a branch on it, a direct JAL and a store. -/
def storeBehindControls (n : Nat) : IssuePayload :=
  match n with
  | 0 => plainPayload true
  | 1 => { branchPayload with rsAddr := fun _ => 5 }
  | 2 => { IssuePayload.zero with jump := true, brOp := brOpJal, rd := 1, regWrite := true }
  | _ => { IssuePayload.zero with memWrite := true }

/-- The branch waits for its operand; the JAL issues, and then completes. -/
def controlsInputs : List (BackendInput smallWindow) :=
  [{ offer smallWindow storeBehindControls 0 3 with
      decodeUsesI := fun lane _ => lane.val == 1 },
    { offer smallWindow storeBehindControls 3 1 with
      pipeReadyI := fun pipe => pipe == .ex1 },
    { idle smallWindow with
      completeValidI := fun port => port.val == 1
      completeIdI := fun _ => 2
      completeSlotI := fun _ => 2
      completePayloadI := fun _ => ⟨true, false, false, 1, 7⟩
      completeSeq := fun _ => 2 }]

/-- Every pipe takes what it is offered. -/
def drain (p : WindowParams) : BackendInput p :=
  { idle p with pipeReadyI := fun _ => true }

theorem drain_promises (t : BackendTracked p) : t.Promises (drain p) := by
  have hstill : Still (drain p) := ⟨fun _ => rfl, fun _ => rfl⟩
  apply hstill.promises
  · exact ⟨id, id⟩
  · exact fun _ => zero_decoded
  · intro lane o
    rfl
  · intro hnone
    simp [drain, idle] at hnone

instance (t : BackendTracked p) (i : BackendInput p) : Decidable (ControlsSeen t i) := by
  unfold ControlsSeen
  infer_instance

/-- The JAL is in the highest slot, and holds the store back until it completes. -/
theorem issue_ordered_jal :
    IssueOrdered
      (Sync.exec (issueBackend smallWindow) [] (powerUp smallWindow) (controlsInputs.take 2)).2
      (drain smallWindow) := by
  apply issue_ordered
  · exact Sync.exec_run_decide (controlsInputs.take 2) (powerUp_init smallWindow)
      (by decide +kernel)
  · decide +kernel
  · decide +kernel

/-- When it has, the store issues before the branch. -/
theorem issue_ordered_fails :
    ¬ ∀ (p : WindowParams) past (t : BackendTracked p) i, p.resultReadyControlRelease = true →
      Sync.Run (issueBackend p) (boundedEnv p) past t → t.Promises i → t.Bounded i →
        IssueOrdered t i := by
  intro hordered
  have hguarded := (hordered smallWindow _ _ (drain smallWindow) rfl
    (Sync.exec_run_decide controlsInputs (powerUp_init smallWindow) (by decide +kernel))
    (drain_promises _) (by decide +kernel)).guarded
  revert hguarded
  decide +kernel

end BackendTracked

end OpenRV64
