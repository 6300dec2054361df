/-
The operands that the window hands out: the value of the latest older writer of the
register, from wherever the window has it.
-/
import OpenRV64.AgeScan
import OpenRV64.WindowOrder

namespace OpenRV64

open ModularAge RingSegment LatestWriter AgeScan BackendInput IssuePayload RetireEntry WindowState
open Bool (and_eq_true not_eq_true' not_eq_false)
open List (mem_of_getElem? mem_iff_getElem? find?_some find?_eq_none mem_map finRange mem_reverse
  mem_cons range)
open Option (some map_eq_some_iff ne_none_iff_exists' or_eq_some_iff map_some some_ne_none none_or)
open Fin (ofNat val_ofNat)

/-- What the owner table keeps of a register, by the numbers of the instructions. -/
def Owner.Names {w : Nat} (x : Owner w) : LatestWriter.Owner (BitVec 64) → Prop
  | none => x.valid = false
  | some (m, none) => x.valid = true ∧ x.id = idOf w m ∧ x.ready = false
  | some (m, some v) => x.valid = true ∧ x.id = idOf w m ∧ x.ready = true ∧ x.data = v

/-- What an entry keeps of a source operand, by the numbers of the instructions. -/
def WindowSource.Names {w : Nat} (x : WindowSource w) : Source (BitVec 64) → Prop
  | .value v => x.ready = true ∧ x.data = v
  | .waits m => x.ready = false ∧ x.tag = idOf w m

theorem Owner.Names.id {w : Nat} {x : Owner w} {m : Nat} {known : Option (BitVec 64)}
    (h : x.Names (some (m, known))) : x.valid ∧ x.id = idOf w m := by
  cases known with
  | none => exact ⟨h.1, h.2.1⟩
  | some v => exact ⟨h.1, h.2.1⟩

theorem find?_reverse_of_unique {α : Type} {q : α → Bool} {l : List α}
    (hunique : ∀ x ∈ l, ∀ y ∈ l, q x → q y → x = y) : l.reverse.find? q = l.find? q := by
  cases h : l.find? q with
  | none =>
    rw [find?_eq_none] at h ⊢
    exact fun x hx => h x (mem_reverse.mp hx)
  | some a =>
    have ha := List.mem_of_find?_eq_some h
    have hq := find?_some h
    cases hr : l.reverse.find? q with
    | none =>
      rw [find?_eq_none] at hr
      exact absurd hq (hr a (mem_reverse.mpr ha))
    | some b =>
      have hb := mem_reverse.mp (List.mem_of_find?_eq_some hr)
      have hqb := find?_some hr
      rw [hunique b hb a ha hqb hq]

namespace BackendTracked

variable {p : WindowParams} {t : BackendTracked p} {i : BackendInput p}

/-- What the window keeps of operands and results is right. -/
structure Operands (t : BackendTracked p) : Prop where
  coupled : Coupled t
  decoded : ∀ e ∈ t.ledger.live, (t.program e.seq).Decoded
  fresh : ∀ n, t.ledger.next ≤ n → t.result n = none
  source : ∀ e ∈ t.ledger.live, ∀ o, t.uses e.seq o = true → (t.program e.seq).rsAddr o ≠ 0 →
      ∃ x, Tracks t.flight ((t.program e.seq).rsAddr o) e.seq x ∧
        ((t.window.entry e.slot).src o).Names x
  unread : ∀ e ∈ t.ledger.live, ∀ o, t.uses e.seq o = false ∨
    (t.program e.seq).rsAddr o = 0 → ((t.window.entry e.slot).src o).Names (.value 0)
  owner : ∀ r, r ≠ 0 → ∃ x, Owns t.flight r t.ledger.next x ∧ (t.window.owner r).Names x
  result : ∀ e ∈ t.ledger.live, (t.program e.seq).target ≠ none →
    (t.window.entry e.slot).resultReady = (t.result e.seq).isSome ∧
      ∀ v, t.result e.seq = some v → (t.window.entry e.slot).resultData = v

theorem mem_flight {e : RetireEntry} (he : e ∈ t.ledger.live) : e.seq ∈ t.flight.live :=
  ⟨e, he, rfl⟩

/-! ## Answers -/

/-- A cycle that keeps the promises within the bounds. -/
structure Promised (t : BackendTracked p) (i : BackendInput p) : Prop where
  coupled : Coupled t
  promises : t.Promises i
  bounded : t.Bounded i

theorem Cycle.promised (h : Cycle t i) : Promised t i := ⟨h.coupled, h.promises, h.bounded⟩

namespace Promised

section

variable (h : Promised t i) {m : Nat}
include h

/-- A port answers the instruction that its identifier names. -/
theorem broadcasts (hlt : m < t.ledger.next) (hspan : t.ledger.next ≤ m + 2 ^ (p.idWidth - 1))
    (port : Fin 3) :
    (t.windowInput i).broadcasts port (idOf p.idWidth m) = i.broadcasts m port := by
  have hpow : 2 ^ p.idWidth = 2 * 2 ^ (p.idWidth - 1) := by
    rw [← Nat.pow_succ', Nat.succ_eq_add_one, Nat.sub_add_cancel p.idWidth_pos]
  have hpos := Nat.two_pow_pos (p.idWidth - 1)
  change (i.completeValidI port && (i.completePayloadI port).safe &&
    i.completeIdI port == idOf p.idWidth m) = (_ && _ && i.completeSeq port == m)
  cases hval : i.completeValidI port with
  | false => rfl
  | true =>
    have hnamed := (h.promises.answers port).named hval
    have hold := (h.promises.answers port).allocated hval
    have hwithin := h.bounded.answers port hval
    congr 1
    rw [hnamed, Bool.eq_iff_iff, beq_iff_eq, beq_iff_eq, idOf_inj (by omega) (by omega)]

theorem broadcasts_unique {port other : Fin 3} (hport : i.broadcasts m port)
    (hoth : i.broadcasts m other) : port = other := by
  have hseq : i.completeSeq port = m := by
    simp only [BackendInput.broadcasts, and_eq_true, beq_iff_eq] at hport
    exact hport.2
  subst hseq
  exact ((h.promises.answers port).single other hport hoth).symm

theorem firstBroadcast (hlt : m < t.ledger.next) (hspan : t.ledger.next ≤ m + 2 ^ (p.idWidth - 1)) :
    ((t.windowInput i).firstBroadcast (idOf p.idWidth m)).map
      (fun port => (i.completePayloadI port).data) = i.answer m := by
  rw [WindowInput.firstBroadcast, funext (h.broadcasts hlt hspan)]
  rfl

theorem lastBroadcast (hlt : m < t.ledger.next) (hspan : t.ledger.next ≤ m + 2 ^ (p.idWidth - 1)) :
    ((t.windowInput i).lastBroadcast (idOf p.idWidth m)).map
      (fun port => (i.completePayloadI port).data) = i.answer m := by
  rw [WindowInput.lastBroadcast, funext (h.broadcasts hlt hspan),
    find?_reverse_of_unique fun _ _ _ _ => h.broadcasts_unique]
  rfl

/-- Only an unknown result is answered, that of an instruction which writes. -/
theorem answer_some {v : BitVec 64} (hv : i.answer m = some v) :
    m < t.ledger.next ∧ t.result m = none := by
  rw [answer, map_eq_some_iff] at hv
  obtain ⟨port, hport, -⟩ := hv
  have hb := find?_some hport
  have hseq : i.completeSeq port = m := by
    simp only [BackendInput.broadcasts, and_eq_true, beq_iff_eq] at hb
    exact hb.2
  have hval : i.completeValidI port := by
    simp only [BackendInput.broadcasts, and_eq_true] at hb
    exact hb.1.1
  subst hseq
  exact ⟨(h.promises.answers port).allocated hval, (h.promises.answers port).fresh hb⟩

theorem answer_fresh (hm : t.result m ≠ none) : i.answer m = none := by
  by_contra hne
  obtain ⟨v, hv⟩ := ne_none_iff_exists'.mp hne
  exact hm (h.answer_some hv).2

theorem live_span (hm : m ∈ t.flight.live) :
    m < t.ledger.next ∧ t.ledger.next ≤ m + 2 ^ (p.idWidth - 1) := by
  obtain ⟨e, he, rfl⟩ := hm
  exact ⟨h.coupled.retire.accounted.live_seq_lt he, h.bounded.window e he⟩

end

/-- What an operand makes of this cycle's answers, by either of the two scans. -/
theorem wakes (h : Promised t i) {src now : WindowSource p.idWidth} {x : Source (BitVec 64)}
    {scan : BitVec p.idWidth → Option (Fin 3)} (hnames : src.Names x)
    (hlive : ∀ m, x = .waits m → m ∈ t.flight.live)
    (hscan : ∀ m < t.ledger.next, t.ledger.next ≤ m + 2 ^ (p.idWidth - 1) →
      (scan (idOf p.idWidth m)).map (fun port => (i.completePayloadI port).data) = i.answer m)
    (hnow : now = if src.ready then src else
      match scan src.tag with
      | some port => { src with ready := true, data := (i.completePayloadI port).data }
      | none => src) : now.Names (x.wake i.answer) := by
  cases x with
  | value v =>
    obtain ⟨hrdy, hdata⟩ := hnames
    rw [hnow, hrdy, if_pos rfl]
    exact ⟨hrdy, hdata⟩
  | waits m =>
    obtain ⟨hrdy, htag⟩ := hnames
    obtain ⟨hlt, hspan⟩ := h.live_span (hlive m rfl)
    have hans := hscan m hlt hspan
    rw [hnow, hrdy, if_low, htag, Source.wake, ← hans]
    cases scan (idOf p.idWidth m) with
    | none => exact ⟨hrdy, htag⟩
    | some port => exact ⟨rfl, rfl⟩

section

variable (h : Promised t i) {n : Nat} {o : Operand} {x : Source (BitVec 64)}
  (hnames : ((t.window.entry n).src o).Names x) (hlive : ∀ m, x = .waits m → m ∈ t.flight.live)
include h hnames hlive

theorem srcNow_names : (t.window.srcNow (t.windowInput i) n o).Names (x.wake i.answer) :=
  h.wakes hnames hlive (fun _ => h.firstBroadcast) rfl

theorem srcNext_names : (t.window.srcNext (t.windowInput i) n o).Names (x.wake i.answer) :=
  h.wakes hnames hlive (fun _ => h.lastBroadcast) rfl

end

/-- The result of an entry with this cycle's answers. -/
theorem resultNow (h : Promised t i) {e : RetireEntry} (he : e ∈ t.ledger.live) :
    t.window.resultNow (t.windowInput i) e.slot =
      match i.answer e.seq with
      | some v => (true, v)
      | none => ((t.window.entry e.slot).resultReady, (t.window.entry e.slot).resultData) := by
  obtain ⟨hlt, hspan⟩ := h.live_span (mem_flight he)
  rw [WindowState.resultNow, (h.coupled.entry e he).2.1, ← h.lastBroadcast hlt hspan]
  cases (t.windowInput i).lastBroadcast (idOf p.idWidth e.seq) <;> rfl

end Promised

namespace Cycle

/-! ## The owner table -/

/-- What one port makes of the entry of a register. -/
theorem completeOwner (h : Cycle t i) {table : BitVec 5 → Owner p.idWidth} {r : BitVec 5}
    {m : Nat} (hr : r ≠ 0) (hm : m ∈ t.flight.live) (hwrs : t.flight.writes m = some r)
    (hval : (table r).valid) (hid : (table r).id = idOf p.idWidth m)
    (port : Fin 3) :
    WindowState.completeOwner (t.windowInput i) table port r =
      if i.broadcasts m port then
        { table r with ready := true, data := (i.completePayloadI port).data }
      else table r := by
  obtain ⟨hlt, hspan⟩ := h.promised.live_span hm
  have hsame := h.promised.broadcasts hlt hspan port
  change (if r = (i.completePayloadI port).rd ∧ i.completeValidI port ∧
    (i.completePayloadI port).safe ∧ (i.completePayloadI port).rd ≠ 0 ∧
    (table r).valid ∧ (table r).id = i.completeIdI port then _ else _) = _
  cases hb : i.broadcasts m port with
  | true =>
    rw [hb] at hsame
    simp only [WindowInput.broadcasts, and_eq_true, beq_iff_eq] at hsame
    obtain ⟨⟨hcomp, hsafe⟩, hname⟩ := hsame
    have hseq : i.completeSeq port = m := by
      simp only [BackendInput.broadcasts, and_eq_true, beq_iff_eq] at hb
      exact hb.2
    have htgt := ((h.promises.answers port).writes (by rw [hseq]; exact hb)).2
    have hrd : (t.program m).rd = r := by
      change (t.program m).target = some r at hwrs
      rw [target] at hwrs
      split at hwrs
      · exact some.inj hwrs
      · cases hwrs
    rw [hseq, hrd] at htgt
    rw [if_pos ⟨htgt.symm, hcomp, hsafe, htgt ▸ hr, hval, hid.trans hname.symm⟩, if_pos rfl]
    rfl
  | false =>
    rw [hb] at hsame
    rw [if_neg, if_low]
    rintro ⟨-, hcomp, hsafe, -, -, hname⟩
    have hcon : (t.windowInput i).broadcasts port (idOf p.idWidth m) := by
      simp only [WindowInput.broadcasts, and_eq_true, beq_iff_eq]
      exact ⟨⟨hcomp, hsafe⟩, hname.symm.trans hid⟩
    rw [hcon] at hsame
    cases hsame

theorem completeOwner_vacant {table : BitVec 5 → Owner p.idWidth} {r : BitVec 5}
    (hval : (table r).valid = false) (port : Fin 3) :
    WindowState.completeOwner (t.windowInput i) table port r = table r := by
  apply if_neg
  rintro ⟨-, -, -, -, hcon, -⟩
  rw [hval] at hcon
  cases hcon

theorem complete_fold (h : Cycle t i) {r : BitVec 5} {m : Nat} (hr : r ≠ 0)
    (hm : m ∈ t.flight.live) (hwrs : t.flight.writes m = some r) (ports : List (Fin 3))
    {table : BitVec 5 → Owner p.idWidth} {known : Option (BitVec 64)}
    (hnames : (table r).Names (some (m, known))) :
    (ports.foldl (WindowState.completeOwner (t.windowInput i)) table r).Names
      (some (m, ((ports.reverse.find? (i.broadcasts m)).map
        fun port => (i.completePayloadI port).data).or known)) := by
  induction ports generalizing table known with
  | nil => exact hnames
  | cons port rest ih =>
    obtain ⟨hval, hid⟩ := hnames.id
    have hport := h.completeOwner hr hm hwrs hval hid port
    rw [List.foldl_cons, List.reverse_cons, List.find?_append, Option.map_or, Option.or_assoc]
    apply ih
    rw [hport]
    cases hb : i.broadcasts m port with
    | true =>
      rw [List.find?_cons_of_pos hb, if_pos rfl]
      exact ⟨hval, hid, rfl, rfl⟩
    | false =>
      rw [List.find?_cons_of_neg (by rw [hb]; exact Bool.false_ne_true), if_low]
      exact hnames

theorem complete_fold_vacant {r : BitVec 5} (ports : List (Fin 3))
    {table : BitVec 5 → Owner p.idWidth} (hval : (table r).valid = false) :
    (ports.foldl (WindowState.completeOwner (t.windowInput i)) table r).valid = false := by
  induction ports generalizing table with
  | nil => exact hval
  | cons port rest ih =>
    apply ih
    rw [completeOwner_vacant hval, hval]

theorem complete_names (h : Cycle t i) {r : BitVec 5} (hr : r ≠ 0)
    {x : LatestWriter.Owner (BitVec 64)} (howns : Owns t.flight r t.ledger.next x)
    (hnames : (t.window.owner r).Names x) :
    ((finRange 3).foldl (WindowState.completeOwner (t.windowInput i)) t.window.owner
      r).Names (x.map fun o => (o.1, (i.answer o.1).or o.2)) := by
  cases x with
  | none => exact complete_fold_vacant _ hnames
  | some o =>
    have hfold := h.complete_fold hr howns.1.live howns.1.writes (finRange 3) hnames
    rw [find?_reverse_of_unique fun _ _ _ _ => h.promised.broadcasts_unique] at hfold
    exact hfold

theorem retireOwner_eq {table : BitVec 5 → Owner p.idWidth} {r : BitVec 5} (hr : r ≠ 0)
    (lane : Fin 3) :
    retireOwner (t.windowInput i) table lane r =
      if (table r).valid ∧ i.retireAcceptI lane ∧
          (table r).id = (t.windowInput i).retireIdI lane then
        { table r with valid := false, ready := false }
      else table r := by
  have hiff : (i.retireAcceptI lane ∧ r ≠ 0 ∧ (table r).valid ∧
      (table r).id = (t.windowInput i).retireIdI lane) ↔ (table r).valid ∧
        i.retireAcceptI lane ∧ (table r).id = (t.windowInput i).retireIdI lane :=
    ⟨fun ⟨hacc, _, hval, hid⟩ => ⟨hval, hacc, hid⟩, fun ⟨hval, hacc, hid⟩ => ⟨hacc, hr, hval, hid⟩⟩
  exact if_congr hiff rfl rfl

section

variable {r : BitVec 5} (hr : r ≠ 0) (lanes : List (Fin 3)) {table : BitVec 5 → Owner p.idWidth}

include hr

theorem retire_fold_vacant (hval : (table r).valid = false) :
    (lanes.foldl (retireOwner (t.windowInput i)) table r).valid = false := by
  induction lanes generalizing table with
  | nil => exact hval
  | cons lane rest ih =>
    apply ih
    rw [retireOwner_eq hr, hval, if_neg fun hcon => Bool.false_ne_true hcon.1, hval]

theorem retire_fold {m : Nat} {known : Option (BitVec 64)}
    (hnames : (table r).Names (some (m, known))) :
    (lanes.foldl (retireOwner (t.windowInput i)) table r).Names
      (if lanes.any (fun lane => i.retireAcceptI lane &&
          (t.windowInput i).retireIdI lane == idOf p.idWidth m)
        then none else some (m, known)) := by
  induction lanes generalizing table with
  | nil => exact hnames
  | cons lane rest ih =>
    obtain ⟨hval, hid⟩ := hnames.id
    rw [List.foldl_cons, List.any_cons]
    cases hmat : i.retireAcceptI lane && (t.windowInput i).retireIdI lane == idOf p.idWidth m with
    | true =>
      rw [and_eq_true, beq_iff_eq] at hmat
      rw [Bool.true_or, if_pos rfl]
      apply retire_fold_vacant hr
      rw [retireOwner_eq hr, if_pos ⟨hval, hmat.1, hid.trans hmat.2.symm⟩]
    | false =>
      rw [Bool.false_or]
      apply ih
      rw [retireOwner_eq hr, if_neg]
      · exact hnames
      · rintro ⟨-, hacc, hname⟩
        rw [hacc, Bool.true_and, beq_eq_false_iff_ne] at hmat
        exact hmat (hname.symm.trans hid)

end

/-- The numbers of the instructions that retire. -/
def leavingSeqs (t : BackendTracked p) (i : BackendInput p) : List Nat := (t.leaving i).map seq

theorem mem_leavingSeqs (h : Cycle t i) {e : RetireEntry} (he : e ∈ t.ledger.live) :
    e.seq ∈ leavingSeqs t i ↔ e ∈ t.leaving i := by
  rw [leavingSeqs, mem_map]
  constructor
  · rintro ⟨f, hf, hseq⟩
    rwa [← h.coupled.seq_inj (List.mem_of_mem_take hf) he hseq]
  · exact fun hmem => ⟨e, hmem, rfl⟩

theorem retires_leaving (h : Cycle t i) {e : RetireEntry} (he : e ∈ t.ledger.live) :
    (t.windowInput i).retires (idOf p.idWidth e.seq) = decide (e.seq ∈ leavingSeqs t i) := by
  obtain ⟨j, hj⟩ := mem_iff_getElem?.mp he
  rw [h.retires hj, decide_eq_decide, h.mem_leavingSeqs he, h.mem_leaving hj]

/-- The table that the first lane of decode reads. -/
theorem ownerView0_names (h : Cycle t i) {r : BitVec 5} (hr : r ≠ 0)
    {x : LatestWriter.Owner (BitVec 64)} (howns : Owns t.flight r t.ledger.next x)
    (hnames : (t.window.owner r).Names x) :
    (t.window.ownerView0 (t.windowInput i) r).Names
      ((x.map fun o => (o.1, (i.answer o.1).or o.2)).filter fun o => o.1 ∉ leavingSeqs t i) := by
  have hcomp := h.complete_names hr howns hnames
  cases x with
  | none => exact retire_fold_vacant hr _ hcomp
  | some o =>
    obtain ⟨m, known⟩ := o
    have hfold := retire_fold (t := t) (i := i) hr (finRange 3) hcomp
    obtain ⟨e, he, hseq⟩ := howns.1.live
    have hretires := h.retires_leaving he
    rw [hseq] at hretires
    change (finRange 3).any (fun lane => i.retireAcceptI lane &&
      (t.windowInput i).retireIdI lane == idOf p.idWidth m) = _ at hretires
    rw [hretires] at hfold
    rw [map_some, Option.filter_some]
    by_cases hmem : m ∈ leavingSeqs t i
    · rw [if_neg (by simpa using hmem)]
      rwa [decide_eq_true hmem, if_pos rfl] at hfold
    · rw [if_pos (by simpa using hmem)]
      rwa [decide_eq_false hmem, if_low] at hfold

/-! ## What retires -/

section

variable (t : BackendTracked p) (i : BackendInput p)

theorem retired_eq : t.retired i = (t.flight.answer i.answer).commits (leavingSeqs t i) := by
  rw [retired, Flight.commits, leavingSeqs, List.foldl_map]

theorem retired_live : (t.retired i).live = {n ∈ t.flight.live | n ∉ leavingSeqs t i} := by
  rw [retired_eq, commits_live]
  rfl

theorem retired_writes : (t.retired i).writes = t.flight.writes := by
  rw [retired_eq, commits_writes]
  rfl

theorem retired_result : (t.retired i).result = fun n => (i.answer n).or (t.result n) := by
  rw [retired_eq, commits_result]
  rfl

end

theorem oldest_leaving (h : Cycle t i) : Oldest (t.flight.answer i.answer) (leavingSeqs t i) where
  sorted := by
    have hsorted := h.coupled.retire.accounted.live_seq_pairwise
    rw [leavingSeqs, List.pairwise_map]
    exact (List.pairwise_map.mp hsorted).sublist (List.take_sublist _ _)
  live m hm := by
    obtain ⟨e, he, rfl⟩ := mem_map.mp hm
    exact mem_flight (List.mem_of_mem_take he)
  first k hk hnone m hm := by
    obtain ⟨e, he, rfl⟩ := hk
    obtain ⟨f, hf, rfl⟩ := mem_map.mp hm
    have hfl := List.mem_of_mem_take hf
    rw [h.mem_leavingSeqs he] at hnone
    obtain ⟨j, hj⟩ := mem_iff_getElem?.mp he
    obtain ⟨l, hl⟩ := mem_iff_getElem?.mp hfl
    rw [h.mem_leaving hj] at hnone
    have hlt := (h.mem_leaving hl).mp hf
    exact (h.coupled.retire.accounted.live_seq_lt_iff hl hj).mpr (by omega)

section

variable (h : Cycle t i) {e : RetireEntry} (he : e ∈ t.ledger.live) (hstays : e ∉ t.leaving i)

include h he hstays

/-- An instruction that stays is younger than all that retire. -/
theorem leaving_lt : ∀ m ∈ leavingSeqs t i, m < e.seq :=
  h.oldest_leaving.first e.seq (mem_flight he) (by rwa [h.mem_leavingSeqs he])

/-- The operands of an instruction that stays, with the answers and without what
retires. -/
theorem tracks_retired {r : BitVec 5} {x : Source (BitVec 64)}
    (htrk : Tracks t.flight r e.seq x) : Tracks (t.retired i) r e.seq (x.wake i.answer) := by
  rw [retired_eq]
  apply (htrk.answer fun m hm => h.promised.answer_fresh hm).commits h.oldest_leaving
    (h.leaving_lt he hstays)
  intro m hm hwrs
  obtain ⟨f, hf, rfl⟩ := mem_map.mp hm
  have hvalue := h.promises.values.resolve_left (by rw [h.noClear]; exact Bool.false_ne_true)
    f hf hwrs
  change (i.answer f.seq).or (t.result f.seq) ≠ none
  obtain ⟨v, hv⟩ := ne_none_iff_exists'.mp hvalue
  rw [hv, Option.or_some]
  exact some_ne_none _

end

theorem owns_retired (h : Cycle t i) {r : BitVec 5} {x : LatestWriter.Owner (BitVec 64)}
    (howns : Owns t.flight r t.ledger.next x) :
    Owns (t.retired i) r t.ledger.next ((x.map fun o => (o.1, (i.answer o.1).or o.2)).filter
        fun o => o.1 ∉ leavingSeqs t i) := by
  rw [retired_eq]
  exact howns.answer.commits h.oldest_leaving

/-! ## What is admitted -/

/-- The instructions in flight after the first `k` lanes of decode. -/
def admitted (t : BackendTracked p) (i : BackendInput p) :
    Nat → Flight (BitVec 5) (BitVec 64)
  | 0 => t.retired i
  | k + 1 =>
    (admitted t i k).join (t.ledger.next + k) (i.decodePayloadI (Fin.ofNat 3 k)).target

/-- The owner table after the first `k` lanes. -/
def tableAfter (t : BackendTracked p) (i : BackendInput p) : Nat → BitVec 5 → Owner p.idWidth
  | 0 => t.window.ownerView0 (t.windowInput i)
  | k + 1 => t.window.admitOwner (t.windowInput i) (tableAfter t i k) (Fin.ofNat 3 k)

section

variable (t : BackendTracked p) (i : BackendInput p) (k : Nat)

theorem admitted_live : (admitted t i k).live =
      {n | n ∈ (t.retired i).live ∨ (t.ledger.next ≤ n ∧ n < t.ledger.next + k)} := by
  induction k with
  | zero =>
    ext n
    rw [admitted]
    exact ⟨.inl, fun hn => hn.resolve_right fun hcon => by omega⟩
  | succ k ih =>
    ext n
    change n ∈ (admitted t i k).live ∨ n = _ ↔ _ ∨ _
    rw [ih]
    constructor
    · rintro ((hn | hn) | hn)
      · exact .inl hn
      · exact .inr (by omega)
      · exact .inr (by omega)
    · rintro (hn | hn)
      · exact .inl (.inl hn)
      · by_cases hlast : n = t.ledger.next + k
        · exact .inr hlast
        · exact .inl (.inr (by omega))

theorem admitted_writes (n : Nat) : (admitted t i k).writes n =
      if t.ledger.next ≤ n ∧ n < t.ledger.next + k then
        (i.decodePayloadI (ofNat 3 (n - t.ledger.next))).target
      else t.flight.writes n := by
  induction k with
  | zero =>
    rw [admitted, retired_writes, if_neg (by omega)]
  | succ k ih =>
    change (if n = t.ledger.next + k then _ else (admitted t i k).writes n) = _
    rw [ih]
    by_cases hlast : n = t.ledger.next + k
    · rw [if_pos hlast, if_pos (by omega), hlast, Nat.add_sub_cancel_left]
    · rw [if_neg hlast]
      exact if_congr (by omega) rfl rfl

theorem admitted_result (n : Nat) : (admitted t i k).result n =
      if t.ledger.next ≤ n ∧ n < t.ledger.next + k then none
      else (i.answer n).or (t.result n) := by
  induction k with
  | zero =>
    rw [admitted, retired_result, if_neg (by omega)]
  | succ k ih =>
    change (if n = t.ledger.next + k then _ else (admitted t i k).result n) = _
    rw [ih]
    by_cases hlast : n = t.ledger.next + k
    · rw [if_pos hlast, if_pos (by omega)]
    · rw [if_neg hlast]
      exact if_congr (by omega) rfl rfl

theorem admitted_committed : (admitted t i k).committed = (t.retired i).committed := by
  induction k with
  | zero => rfl
  | succ k ih => exact ih

end

theorem admitted_lt (h : Cycle t i) (k : Nat) :
    ∀ n ∈ (admitted t i k).live, n < t.ledger.next + k := by
  intro n hn
  rw [admitted_live] at hn
  rcases hn with hn | hn
  · rw [retired_live] at hn
    have := (h.promised.live_span hn.1).1
    omega
  · exact hn.2

theorem decodeFire_iff (h : Cycle t i) {k : Nat} (hk : k < 3) :
    t.window.decodeFire (t.windowInput i) (ofNat 3 k) = decide (k < grown t i) := by
  rw [lane_eq_decide (t.window.decodeFire_order _), h.grown_eq, val_ofNat, Nat.mod_eq_of_lt hk]

theorem allocId (h : Cycle t i) {k : Nat} (hk : k < 3) :
    (t.windowInput i).allocationIdI (ofNat 3 k) = idOf p.idWidth (t.ledger.next + k) := by
  change t.queue.allocId (ofNat 3 k) = _
  rw [RetireQueueState.allocId, h.coupled.retire.nextId, val_ofNat, Nat.mod_eq_of_lt hk, idOf_add]
  rfl

/-- The owner table after some of the lanes is right for the next one. -/
theorem tableAfter_names (h : Cycle t i) {r : BitVec 5} (hr : r ≠ 0)
    (hbase : ∃ x, Owns t.flight r t.ledger.next x ∧ (t.window.owner r).Names x) {k : Nat}
    (hk : k ≤ 3) :
    ∃ x, Owns (admitted t i (min k (grown t i))) r (t.ledger.next + min k (grown t i)) x ∧
      (tableAfter t i k r).Names x := by
  induction k with
  | zero =>
    obtain ⟨x, howns, hnames⟩ := hbase
    rw [Nat.zero_min]
    exact ⟨_, h.owns_retired howns, h.ownerView0_names hr howns hnames⟩
  | succ k ih =>
    obtain ⟨x, howns, hnames⟩ := ih (by omega)
    have hfire := h.decodeFire_iff (show k < 3 by omega)
    have hrd : ∀ y : IssuePayload, (r = y.rd ∧ y.writesGpr) ↔ y.target = some r := by
      intro y
      rw [target]
      constructor
      · rintro ⟨hrd, hw⟩
        rw [if_pos hw, hrd]
      · intro hsome
        split at hsome
        · rename_i hw
          exact ⟨(some.inj hsome).symm, hw⟩
        · cases hsome
    by_cases hlt : k < grown t i
    · rw [decide_eq_true hlt] at hfire
      rw [Nat.min_eq_left hlt.le] at howns
      rw [Nat.min_eq_left (show k + 1 ≤ grown t i by omega)]
      refine ⟨_, howns.join (h.admitted_lt k), ?_⟩
      change (if _ then _ else _ : Owner p.idWidth).Names _
      rw [h.allocId (show k < 3 by omega)]
      by_cases hw : (i.decodePayloadI (ofNat 3 k)).target = some r
      · rw [if_pos hw, if_pos]
        · exact ⟨rfl, rfl, rfl⟩
        · obtain ⟨hrd', hwrs⟩ := (hrd _).mpr hw
          exact ⟨hrd', hfire, hwrs⟩
      · rw [if_neg hw, if_neg]
        · exact hnames
        · exact fun hcon => hw ((hrd _).mp ⟨hcon.1, hcon.2.2⟩)
    rw [decide_eq_false hlt] at hfire
    rw [Nat.min_eq_right (show grown t i ≤ k + 1 by omega)]
    rw [Nat.min_eq_right (show grown t i ≤ k by omega)] at howns
    refine ⟨x, howns, ?_⟩
    change (if _ then _ else _ : Owner p.idWidth).Names _
    rw [if_neg]
    · exact hnames
    · rintro ⟨-, hcon, -⟩
      rw [hfire] at hcon
      cases hcon

/-! ## The instructions in flight after the cycle -/

section

variable (h : Cycle t i)

include h

theorem mem_step_flight {n : Nat} : n ∈ ((issueBackend p).step t i).flight.live ↔
      (∃ j e, t.ledger.live[j]? = some e ∧ gone t i ≤ j ∧ j < kept t i ∧ e.seq = n) ∨
        (t.ledger.next ≤ n ∧ n < t.ledger.next + grown t i) := by
  have hmap : n ∈ ((issueBackend p).step t i).flight.live ↔
      n ∈ ((issueBackend p).step t i).ledger.live.map seq := by
    rw [mem_map]
    rfl
  rw [hmap, h.step_seqs, List.mem_append, List.mem_range'_1]
  apply or_congr_left
  rw [mem_iff_getElem?]
  constructor
  · rintro ⟨k, hk⟩
    rw [List.getElem?_drop, List.getElem?_take] at hk
    split at hk
    · rename_i hlt
      rw [List.getElem?_map, map_eq_some_iff] at hk
      obtain ⟨e, he, hseq⟩ := hk
      exact ⟨_, e, he, Nat.le_add_right _ _, hlt, hseq⟩
    · cases hk
  · rintro ⟨j, e, he, hgone, hkept, hseq⟩
    refine ⟨j - gone t i, ?_⟩
    rw [List.getElem?_drop, Nat.add_sub_cancel' hgone, List.getElem?_take, if_pos hkept,
      List.getElem?_map, he, map_some, hseq]

theorem mem_retired {j : Nat} {e : RetireEntry}
    (he : t.ledger.live[j]? = some e) : e.seq ∈ (t.retired i).live ↔ gone t i ≤ j := by
  have hel := mem_of_getElem? he
  rw [retired_live]
  change e.seq ∈ t.flight.live ∧ e.seq ∉ leavingSeqs t i ↔ _
  rw [h.mem_leavingSeqs hel, h.mem_leaving he]
  exact ⟨fun hstays => not_lt.mp hstays.2, fun hstays => ⟨mem_flight hel, not_lt.mpr hstays⟩⟩

theorem admitLane_eq (n : Nat) : t.admitLane i n =
      if t.ledger.next ≤ n ∧ n < t.ledger.next + grown t i then
        some (ofNat 3 (n - t.ledger.next)) else none := by
  have h3 := laneCount_le (t.window.decodeFire (t.windowInput i))
  rw [← h.grown_eq] at h3
  split
  · rename_i hn
    have hfire := h.decodeFire_iff (show n - t.ledger.next < 3 by omega)
    rw [decide_eq_true (by omega)] at hfire
    have hlane := admitLane_new hfire
    rw [val_ofNat, Nat.mod_eq_of_lt (by omega), Nat.add_sub_cancel' hn.1] at hlane
    exact hlane
  rename_i hn
  rw [admitLane, find?_eq_none]
  intro lane _ hcon
  rw [and_eq_true, beq_iff_eq] at hcon
  obtain ⟨hfire, rfl⟩ := hcon
  rw [lane_eq_decide (t.window.decodeFire_order _), ← h.grown_eq, decide_eq_true_iff] at hfire
  omega

theorem step_program (n : Nat) : ((issueBackend p).step t i).program n =
      if t.ledger.next ≤ n ∧ n < t.ledger.next + grown t i then
        i.decodePayloadI (ofNat 3 (n - t.ledger.next)) else t.program n := by
  rw [program_step, h.admitLane_eq]
  split <;> rfl

theorem answer_none_of_next (hfresh : ∀ n, t.ledger.next ≤ n → t.result n = none) {n : Nat}
    (hn : t.ledger.next ≤ n) : (i.answer n).or (t.result n) = none := by
  have hans : i.answer n = none := by
    by_contra hne
    obtain ⟨v, hv⟩ := ne_none_iff_exists'.mp hne
    have := (h.promised.answer_some hv).1
    omega
  rw [hans, hfresh n hn]
  rfl

/-- Without a recovery they are what stays and what is admitted. -/
theorem step_flight (hsq : i.selectiveSquash = false)
    (hfresh : ∀ n, t.ledger.next ≤ n → t.result n = none) :
    ((issueBackend p).step t i).flight = admitted t i (grown t i) := by
  have hkept := kept_of_noSquash (t := t) hsq
  ext1
  · ext n
    rw [h.mem_step_flight, admitted_live]
    apply or_congr_left
    constructor
    · rintro ⟨j, e, he, hgone, -, rfl⟩
      exact (h.mem_retired he).mpr hgone
    · intro hn
      have hlive := hn
      rw [retired_live] at hlive
      obtain ⟨e, he, rfl⟩ := hlive.1
      obtain ⟨j, hj⟩ := mem_iff_getElem?.mp he
      have hjl := (List.getElem?_eq_some_iff.mp hj).1
      exact ⟨j, e, hj, (h.mem_retired hj).mp hn, by omega, rfl⟩
  · funext n
    rw [admitted_writes]
    change (((issueBackend p).step t i).program n).target = _
    rw [h.step_program]
    split <;> rfl
  · funext n
    rw [admitted_result]
    split
    · rename_i hn
      exact h.answer_none_of_next hfresh hn.1
    · rfl
  · rw [admitted_committed]
    rfl

/-- A recovery leaves what stays up to the control that recovers. -/
theorem step_flight_squash (hsq : i.selectiveSquash) :
    ∃ m b, t.ledger.live[m]? = some b ∧ kept t i = m + 1 ∧
      ((issueBackend p).step t i).flight = (t.retired i).keep (· ≤ b.seq) := by
  obtain ⟨m, b, hb, hslot, -⟩ := h.retireCycle.squash_named hsq
  have hkept : kept t i = m + 1 := h.retireCycle.keep_of_squash hsq hb hslot
  have hgrown : grown t i = 0 := RetireTracked.Cycle.grow_of_squash hsq
  refine ⟨m, b, hb, hkept, ?_⟩
  have hle : ∀ {j : Nat} {e : RetireEntry}, t.ledger.live[j]? = some e →
      (j < kept t i ↔ e.seq ≤ b.seq) := by
    intro j e he
    have hlt := h.coupled.retire.accounted.live_seq_lt_iff hb he
    omega
  ext1
  · ext n
    rw [h.mem_step_flight, hgrown]
    constructor
    · rintro (⟨j, e, he, hgone, hj, rfl⟩ | hn)
      · exact ⟨(h.mem_retired he).mpr hgone, (hle he).mp hj⟩
      · omega
    · rintro ⟨hn, hnb⟩
      have hlive := hn
      rw [retired_live] at hlive
      obtain ⟨e, he, rfl⟩ := hlive.1
      obtain ⟨j, hj⟩ := mem_iff_getElem?.mp he
      exact .inl ⟨j, e, hj, (h.mem_retired hj).mp hn, (hle hj).mpr hnb, rfl⟩
  · change _ = (t.retired i).writes
    rw [retired_writes]
    funext n
    change (((issueBackend p).step t i).program n).target = (t.program n).target
    rw [h.step_program, hgrown, if_neg (by omega)]
  · change _ = (t.retired i).result
    rw [retired_result]
    rfl
  · rfl

end

/-- Later lanes change nothing for an earlier instruction. -/
theorem tracks_admitted {r : BitVec 5} {n l : Nat} {x : Source (BitVec 64)}
    (htrk : Tracks (admitted t i l) r n x) (hn : n ≤ t.ledger.next + l) {k : Nat}
    (hlk : l ≤ k) : Tracks (admitted t i k) r n x := by
  induction k, hlk using Nat.le_induction with
  | base => exact htrk
  | succ k hle ih => exact ih.join (by omega)

/-- An instruction that stays reads what it read. -/
theorem tracks_step (h : Cycle t i) (hfresh : ∀ n, t.ledger.next ≤ n → t.result n = none)
    {j : Nat} {e : RetireEntry} (he : t.ledger.live[j]? = some e) (hgone : gone t i ≤ j)
    (hkept : j < kept t i) {r : BitVec 5} {x : Source (BitVec 64)}
    (htrk : Tracks t.flight r e.seq x) :
    Tracks ((issueBackend p).step t i).flight r e.seq (x.wake i.answer) := by
  have hel := mem_of_getElem? he
  have hretired := h.tracks_retired hel (by rw [h.mem_leaving he]; omega) htrk
  cases hsq : i.selectiveSquash with
  | true =>
    obtain ⟨m, b, hb, hm, hflight⟩ := h.step_flight_squash hsq
    have hlt := h.coupled.retire.accounted.live_seq_lt_iff hb he
    rw [hflight]
    exact hretired.keep fun k _ hk => by omega
  | false =>
    rw [h.step_flight hsq hfresh]
    exact tracks_admitted (l := 0) hretired (h.promised.live_span (mem_flight hel)).1.le
      (Nat.zero_le _)

/-! ## Recovery of the owner table -/

/-- The entries that may own a register after a recovery. -/
def ownerCandidate (t : BackendTracked p) (i : BackendInput p) (r : BitVec 5) (n : Nat) : Bool :=
  t.window.survives (t.windowInput i) n && (t.window.entry n).payload.writesGpr &&
    (t.window.entry n).payload.rd == r

/-- The entry `n` is younger than `best`. -/
def youngerEntry (t : BackendTracked p) (n best : Nat) : Bool :=
  isYounger (t.window.entry n).id (t.window.entry best).id

/-- The number of the instruction in a slot. -/
def seqAt (t : BackendTracked p) (n : Nat) : Nat :=
  ((t.ledger.live.find? fun e => e.slot == n).map seq).getD 0

theorem seqAt_slot (h : Cycle t i) {e : RetireEntry} (he : e ∈ t.ledger.live) :
    seqAt t e.slot = e.seq := by
  have hsome : (t.ledger.live.find? fun f => f.slot == e.slot).isSome := by
    rw [List.find?_isSome]
    exact ⟨e, he, beq_self_eq_true _⟩
  obtain ⟨f, hf⟩ := Option.isSome_iff_exists.mp hsome
  have hslot := find?_some hf
  rw [beq_iff_eq] at hslot
  rw [seqAt, hf, h.coupled.slot_inj (List.mem_of_find?_eq_some hf) he hslot]
  rfl

/-- The owner that an entry makes. -/
def entryOwner (t : BackendTracked p) (i : BackendInput p) : Option Nat → Owner p.idWidth
  | none => ⟨false, false, 0, 0⟩
  | some n =>
    { valid := true
      ready := (t.window.resultNow (t.windowInput i) n).1
      id := (t.window.entry n).id
      data := (t.window.resultNow (t.windowInput i) n).2 }

theorem survivorOwner_append (s : WindowState p) (j : WindowInput p) (r : BitVec 5)
    (l l' : List Nat) (owner : Owner p.idWidth) :
    s.survivorOwner j r (l ++ l') owner = s.survivorOwner j r l' (s.survivorOwner j r l owner) := by
  induction l generalizing owner with
  | nil => rfl
  | cons n rest ih => exact ih _

/-- The scan of the survivors picks the youngest writer. -/
theorem survivorOwners_eq (t : BackendTracked p) (i : BackendInput p) (r : BitVec 5) :
    t.window.survivorOwners (t.windowInput i) r =
      entryOwner t i (scan (ownerCandidate t i r) (youngerEntry t) p.depth) := by
  rw [survivorOwners]
  induction p.depth with
  | zero => rfl
  | succ n ih =>
    rw [List.range_succ, survivorOwner_append, ih, scan]
    simp only [survivorOwner]
    have hcand : ownerCandidate t i r n ↔ t.window.survives (t.windowInput i) n ∧
          (t.window.entry n).payload.writesGpr ∧ (t.window.entry n).payload.rd = r := by
      simp only [ownerCandidate, and_eq_true, beq_iff_eq, and_assoc]
    cases hbest : scan (ownerCandidate t i r) (youngerEntry t) n with
    | none =>
      by_cases hn : ownerCandidate t i r n
      · obtain ⟨hs, hw, hrd⟩ := hcand.mp hn
        rw [if_pos ⟨hs, hw, hrd, .inl rfl⟩, if_pos hn]
        rfl
      · rw [if_neg fun hcon => hn (hcand.mpr ⟨hcon.1, hcon.2.1, hcon.2.2.1⟩), if_neg hn]
    | some best =>
      change _ = entryOwner t i
        (if ownerCandidate t i r n && youngerEntry t n best then some n else some best)
      cases hn : ownerCandidate t i r n && youngerEntry t n best with
      | true =>
        rw [and_eq_true] at hn
        obtain ⟨hs, hw, hrd⟩ := hcand.mp hn.1
        rw [if_pos ⟨hs, hw, hrd, .inr hn.2⟩]
        rfl
      | false =>
        rw [if_neg, if_low]
        rintro ⟨hs, hw, hrd, hval | hyoung⟩
        · exact Bool.false_ne_true hval
        · rw [hcand.mpr ⟨hs, hw, hrd⟩, Bool.true_and] at hn
          rw [show youngerEntry t n best from hyoung] at hn
          cases hn

theorem ownerCandidate_iff (h : Cycle t i) (hsq : i.selectiveSquash)
    {r : BitVec 5} {j : Nat} {e : RetireEntry} (he : t.ledger.live[j]? = some e) :
    ownerCandidate t i r e.slot ↔
      (gone t i ≤ j ∧ j < kept t i) ∧ (t.program e.seq).target = some r := by
  rw [ownerCandidate, h.survives hsq he,
    (h.coupled.entry e (mem_of_getElem? he)).2.2, target, and_eq_true,
    and_eq_true, decide_eq_true_iff, beq_iff_eq, and_assoc]
  apply and_congr_right
  intro _
  constructor
  · rintro ⟨hw, rfl⟩
    exact if_pos hw
  · intro hsome
    split at hsome
    · rename_i hw
      exact ⟨hw, some.inj hsome⟩
    · cases hsome

theorem survivorOwners_names (h : Cycle t i) (hsq : i.selectiveSquash)
    (hres : ∀ e ∈ t.ledger.live, (t.program e.seq).target ≠ none →
      (t.window.entry e.slot).resultReady = (t.result e.seq).isSome ∧
        ∀ v, t.result e.seq = some v → (t.window.entry e.slot).resultData = v)
    (r : BitVec 5) :
    ∃ x, Owns ((issueBackend p).step t i).flight r t.ledger.next x ∧
      (t.window.survivorOwners (t.windowInput i) r).Names x := by
  obtain ⟨m, b, hb, hm, hflight⟩ := h.step_flight_squash hsq
  have hgrown : grown t i = 0 := RetireTracked.Cycle.grow_of_squash hsq
  have hwrs : ((issueBackend p).step t i).flight.writes = t.flight.writes := by
    rw [hflight]
    exact retired_writes t i
  have hslots : ∀ n < p.depth, ownerCandidate t i r n →
      ∃ (j : Nat) (e : RetireEntry), t.ledger.live[j]? = some e ∧ e.slot = n := by
    intro n hn hcand
    simp only [ownerCandidate, WindowState.survives, and_eq_true] at hcand
    obtain ⟨e, he, hslot⟩ := h.coupled.resident hn hcand.1.1.1.1
    obtain ⟨j, hj⟩ := mem_iff_getElem?.mp he
    exact ⟨j, e, hj, hslot⟩
  have hlive : ∀ k ∈ ((issueBackend p).step t i).flight.live,
      ((issueBackend p).step t i).flight.writes k = some r →
        ∃ e ∈ t.ledger.live, e.seq = k ∧ ownerCandidate t i r e.slot := by
    intro k hk hw
    rw [h.mem_step_flight, hgrown] at hk
    rcases hk with ⟨j, e, he, hgone, hkept, rfl⟩ | hk
    · refine ⟨e, mem_of_getElem? he, rfl, ?_⟩
      rw [hwrs] at hw
      exact (h.ownerCandidate_iff hsq he).mpr ⟨⟨hgone, hkept⟩, hw⟩
    · omega
  rw [survivorOwners_eq]
  cases hscan : scan (ownerCandidate t i r) (youngerEntry t) p.depth with
  | none =>
    refine ⟨none, ?_, rfl⟩
    intro k hk _ hw
    obtain ⟨e, he, -, hcand⟩ := hlive k hk hw
    rw [scan_eq_none_iff.mp hscan e.slot (h.coupled.slot_lt he)] at hcand
    cases hcand
  | some n =>
    obtain ⟨hn, hcand⟩ := scan_some hscan
    obtain ⟨j, e, he, rfl⟩ := hslots n hn hcand
    have hel := mem_of_getElem? he
    obtain ⟨⟨hgone, hkept⟩, htgt⟩ := (h.ownerCandidate_iff hsq he).mp hcand
    -- The youngest writer is the one of the greatest number, in the order turned round.
    have horders : Orders (ownerCandidate t i r) (youngerEntry t) p.depth
        (fun k => OrderDual.toDual (seqAt t k)) := by
      intro k l hk hl hck hcl
      obtain ⟨_, f, hf, rfl⟩ := hslots k hk hck
      obtain ⟨_, g, hg, rfl⟩ := hslots l hl hcl
      have hfl := mem_of_getElem? hf
      have hgl := mem_of_getElem? hg
      have hyoung := h.younger hf hg
      have hlt := h.coupled.retire.accounted.live_seq_lt_iff hg hf
      rw [youngerEntry, (h.coupled.entry f hfl).2.1, (h.coupled.entry g hgl).2.1, hyoung,
        decide_eq_decide, OrderDual.toDual_lt_toDual, seqAt_slot h hfl, seqAt_slot h hgl]
      exact hlt.symm
    have hresultNow := h.promised.resultNow hel
    have hmem : e.seq ∈ ((issueBackend p).step t i).flight.live :=
      h.mem_step_flight.mpr (.inl ⟨j, e, he, hgone, hkept, rfl⟩)
    refine ⟨some (e.seq, (i.answer e.seq).or (t.result e.seq)), ⟨⟨hmem, ?_, ?_, ?_⟩, rfl⟩, ?_⟩
    · rw [hwrs]
      exact htgt
    · exact (h.promised.live_span (mem_flight hel)).1
    · intro k hk hw _
      obtain ⟨f, hf, rfl, hcf⟩ := hlive k hk hw
      have hleast := scan_least horders hscan (h.coupled.slot_lt hf) hcf
      rw [OrderDual.toDual_le_toDual, seqAt_slot h hf, seqAt_slot h hel] at hleast
      exact hleast
    · obtain ⟨hrdy, hdata⟩ := hres e hel (by rw [htgt]; exact some_ne_none r)
      rw [entryOwner, hresultNow, (h.coupled.entry e hel).2.1]
      cases hans : i.answer e.seq with
      | some v => exact ⟨rfl, rfl, rfl, rfl⟩
      | none =>
        rw [none_or]
        cases hvalue : t.result e.seq with
        | none =>
          rw [hvalue] at hrdy
          exact ⟨rfl, rfl, hrdy⟩
        | some v =>
          rw [hvalue] at hrdy
          exact ⟨rfl, rfl, hrdy, hdata v hvalue⟩

/-! ## One cycle -/

theorem decodeValid_of_fire {lane : Fin 3}
    (hlane : t.window.decodeFire (t.windowInput i) lane) : i.decodeValidI lane := by
  match lane, hlane with
  | 0, hlane =>
    rw [decodeFire, and_eq_true] at hlane
    exact hlane.1
  | 1, hlane =>
    rw [decodeFire, and_eq_true, and_eq_true] at hlane
    exact hlane.1.1
  | 2, hlane =>
    rw [decodeFire, and_eq_true, and_eq_true] at hlane
    exact hlane.1.1

theorem noSquash_of_fire {lane : Fin 3}
    (hlane : t.window.decodeFire (t.windowInput i) lane) : i.selectiveSquash = false := by
  have hnone := (decodeFire_some hlane).2.1
  change i.squashFrontendI = false at hnone
  rw [selectiveSquash, hnone, Bool.false_and]

theorem lane_lt_grown (h : Cycle t i) {lane : Fin 3}
    (hlane : t.window.decodeFire (t.windowInput i) lane) : lane.val < grown t i := by
  rw [lane_eq_decide (t.window.decodeFire_order _), ← h.grown_eq, decide_eq_true_iff] at hlane
  exact hlane

theorem ownerView_eq (t : BackendTracked p) (i : BackendInput p) (lane : Fin 3) :
    t.window.ownerView (t.windowInput i) lane = tableAfter t i lane.val := by
  match lane with
  | 0 => rfl
  | 1 => rfl
  | 2 => rfl

/-- An admitted instruction gets its operands from the table or from the registers. -/
theorem admitSrc_names (h : Cycle t i) (hops : Operands t) {lane : Fin 3}
    (hlane : t.window.decodeFire (t.windowInput i) lane) {o : Operand}
    (huses : i.decodeUsesI lane o) (hr : (i.decodePayloadI lane).rsAddr o ≠ 0) :
    ∃ x, Tracks ((issueBackend p).step t i).flight ((i.decodePayloadI lane).rsAddr o)
        (t.ledger.next + lane) x ∧ (t.window.admitSrc (t.windowInput i) lane o).Names x := by
  have hlt := h.lane_lt_grown hlane
  obtain ⟨x, howns, hnames⟩ := h.tableAfter_names hr (hops.owner _ hr) lane.isLt.le
  rw [Nat.min_eq_left hlt.le] at howns
  rw [h.step_flight (noSquash_of_fire hlane) hops.fresh]
  refine ⟨_, tracks_admitted howns.tracks le_rfl hlt.le, ?_⟩
  have hread : ((i.decodeUsesI lane o && (i.decodePayloadI lane).rsAddr o != 0) : Bool) := by
    rw [huses, bne_iff_ne.mpr hr]
    rfl
  rw [admitSrc]
  change (if (i.decodeUsesI lane o && (i.decodePayloadI lane).rsAddr o != 0) then _
    else _ : WindowSource p.idWidth).Names _
  rw [if_pos hread, ownerView_eq]
  change (if (tableAfter t i lane ((i.decodePayloadI lane).rsAddr o)).valid then _
    else _ : WindowSource p.idWidth).Names _
  rcases x with _ | ⟨m, _ | v⟩
  · rw [if_neg (by rw [show _ = false from hnames]; exact Bool.false_ne_true)]
    refine ⟨rfl, ?_⟩
    change i.gprReadDataI lane o = (admitted t i lane).committed _
    rw [h.promises.registers lane o hr, admitted_committed]
  · obtain ⟨hval, hid, hrdy⟩ := hnames
    rw [if_pos hval]
    exact ⟨hrdy, hid⟩
  · obtain ⟨hval, hid, hrdy, hdata⟩ := hnames
    rw [if_pos hval]
    exact ⟨hrdy, hdata⟩

theorem step_uses_old (h : Cycle t i) {e : RetireEntry} (he : e ∈ t.ledger.live) :
    ((issueBackend p).step t i).uses e.seq = t.uses e.seq := by
  rw [uses_step, h.admitLane_old he]
  rfl

theorem step_program_old (h : Cycle t i) {e : RetireEntry} (he : e ∈ t.ledger.live) :
    ((issueBackend p).step t i).program e.seq = t.program e.seq := by
  rw [program_step, h.admitLane_old he]
  rfl

theorem step_uses_new {lane : Fin 3} (hlane : t.window.decodeFire (t.windowInput i) lane) :
    ((issueBackend p).step t i).uses (t.ledger.next + lane) = i.decodeUsesI lane := by
  rw [uses_step, admitLane_new hlane]
  rfl

theorem step_program_new {lane : Fin 3} (hlane : t.window.decodeFire (t.windowInput i) lane) :
    ((issueBackend p).step t i).program (t.ledger.next + lane) = i.decodePayloadI lane := by
  rw [program_step, admitLane_new hlane]
  rfl

/-- Nothing that writes a register is resolved as a branch. -/
theorem resolves_of_target (h : Cycle t i) (hops : Operands t) {e : RetireEntry}
    (he : e ∈ t.ledger.live) (htgt : (t.program e.seq).target ≠ none) :
    t.window.resolves (t.windowInput i) e.slot = false := by
  by_contra hcon
  rw [not_eq_false, resolves] at hcon
  simp only [and_eq_true, beq_iff_eq] at hcon
  obtain ⟨⟨⟨hresolved, hslot⟩, -⟩, -⟩ := hcon
  change i.redirectSlotI = e.slot at hslot
  have hbranch := (h.promises.resolve hresolved).2
  rw [hslot, (h.coupled.entry e he).2.2] at hbranch
  have hnone := (hops.decoded e he).branch hbranch
  apply htgt
  rw [target, writesGpr, hnone]
  rfl

/-- A cycle keeps the operands right. -/
theorem step_operands (h : Cycle t i) (hops : Operands t) :
    Operands ((issueBackend p).step t i) := by
  constructor
  · exact h.step_coupled
  · intro e he
    rcases h.live_cases he with ⟨j, f, hf, -, -, rfl⟩ | ⟨lane, hlane, rfl⟩
    · have hfl := mem_of_getElem? hf
      rw [mark_seq, h.step_program_old hfl]
      exact hops.decoded f hfl
    · rw [step_program_new hlane]
      exact h.promises.decoded lane (decodeValid_of_fire hlane)
  · intro n hn
    rw [h.step_next] at hn
    exact h.answer_none_of_next hops.fresh (by omega)
  · intro e he o
    rcases h.live_cases he with ⟨j, f, hf, hgone, hkept, rfl⟩ | ⟨lane, hlane, rfl⟩
    · have hfl := mem_of_getElem? hf
      rw [mark_seq, mark_slot, window_next, h.step_uses_old hfl, h.step_program_old hfl,
        h.entry_kept hf hgone hkept]
      intro huses hr
      obtain ⟨x, htrk, hnames⟩ := hops.source f hfl o huses hr
      refine ⟨x.wake i.answer, h.tracks_step hops.fresh hf hgone hkept htrk, ?_⟩
      apply h.promised.srcNext_names hnames
      rintro m rfl
      exact htrk.1.live
    · rw [window_next, step_uses_new hlane, step_program_new hlane, h.entry_admitted hlane]
      exact h.admitSrc_names hops hlane
  · intro e he o
    rcases h.live_cases he with ⟨j, f, hf, hgone, hkept, rfl⟩ | ⟨lane, hlane, rfl⟩
    · have hfl := mem_of_getElem? hf
      rw [mark_seq, mark_slot, window_next, h.step_uses_old hfl, h.step_program_old hfl,
        h.entry_kept hf hgone hkept]
      intro hunread
      exact h.promised.srcNext_names (hops.unread f hfl o hunread) (by intro m hm; cases hm)
    rw [window_next, step_uses_new hlane, step_program_new hlane, h.entry_admitted hlane]
    intro hunread
    have hread : ((i.decodeUsesI lane o && (i.decodePayloadI lane).rsAddr o != 0) : Bool) =
        false := by
      rcases hunread with huses | hr
      · rw [huses, Bool.false_and]
      · rw [hr, bne_self_eq_false, Bool.and_false]
    change (if (i.decodeUsesI lane o && (i.decodePayloadI lane).rsAddr o != 0) then _
      else _ : WindowSource p.idWidth).Names _
    rw [hread, if_low]
    exact ⟨rfl, rfl⟩
  · intro r hr
    rw [h.step_next, window_next, h.window_step]
    cases hsq : i.selectiveSquash with
    | true =>
      have hgrown : grown t i = 0 := RetireTracked.Cycle.grow_of_squash hsq
      rw [hgrown, Nat.add_zero, if_pos rfl]
      exact h.survivorOwners_names hsq hops.result r
    | false =>
      have h3 := laneCount_le (t.window.decodeFire (t.windowInput i))
      rw [← h.grown_eq] at h3
      obtain ⟨x, howns, hnames⟩ := h.tableAfter_names hr (hops.owner r hr) le_rfl
      rw [Nat.min_eq_right h3] at howns
      rw [h.step_flight hsq hops.fresh, if_low]
      refine ⟨x, howns, ?_⟩
      change (if r = 0 then _ else _ : Owner p.idWidth).Names x
      rw [if_neg hr]
      exact hnames
  · intro e he
    rcases h.live_cases he with ⟨j, f, hf, hgone, hkept, rfl⟩ | ⟨lane, hlane, rfl⟩
    · have hfl := mem_of_getElem? hf
      rw [mark_seq, mark_slot, window_next, result_next, h.step_program_old hfl,
        h.entry_kept hf hgone hkept]
      intro htgt
      obtain ⟨hrdy, hdata⟩ := hops.result f hfl htgt
      have hnone := h.resolves_of_target hops hfl htgt
      change ((t.window.resultNow (t.windowInput i) f.slot).1 ||
        t.window.resolves (t.windowInput i) f.slot) = _ ∧
          ∀ v, _ → (t.window.resultNow (t.windowInput i) f.slot).2 = v
      rw [hnone, Bool.or_false, h.promised.resultNow hfl]
      cases hans : i.answer f.seq with
      | some v =>
        rw [Option.some_or]
        exact ⟨rfl, fun w hw => some.inj hw⟩
      | none =>
        rw [none_or]
        exact ⟨hrdy, hdata⟩
    · rw [window_next, result_next, h.entry_admitted hlane,
        h.answer_none_of_next hops.fresh (Nat.le_add_right _ _)]
      exact fun _ => ⟨rfl, fun v hv => nomatch hv⟩

end Cycle

/-! ## Every run -/

theorem Operands.clear (hops : Operands t) (hp : t.Promises i) (hclr : i.clears) :
    Operands ((issueBackend p).step t i) := by
  have hlive : ((issueBackend p).step t i).ledger.live = [] := by
    change (if i.clears then t.ledger.flush else _).live = []
    rw [hclr, if_pos rfl]
    rfl
  have hnxt : ((issueBackend p).step t i).ledger.next = t.ledger.next := by
    change (if i.clears then t.ledger.flush else _).next = _
    rw [hclr, if_pos rfl]
    rfl
  have hnone : ∀ e, e ∉ ((issueBackend p).step t i).ledger.live := by
    rw [hlive]
    exact fun e => List.not_mem_nil
  constructor
  · exact hops.coupled.clear hclr
  · exact fun e he => absurd he (hnone e)
  · intro n hn
    rw [hnxt] at hn
    change (i.answer n).or (t.result n) = none
    rw [hops.fresh n hn, Option.or_none, answer, Option.map_eq_none_iff, find?_eq_none]
    intro port _ hb
    simp only [BackendInput.broadcasts, and_eq_true, beq_iff_eq] at hb
    have := (hp.answers port).allocated hb.1.1
    omega
  · exact fun e he => absurd he (hnone e)
  · exact fun e he => absurd he (hnone e)
  · intro r _
    refine ⟨none, ?_, ?_⟩
    · rintro k ⟨e, he, -⟩
      exact absurd he (hnone e)
    · change ((t.window.step (t.windowInput i)).owner r).valid = false
      have hwindow : (t.windowInput i).clears := hclr
      rw [WindowState.step, hwindow, if_pos rfl]
  · exact fun e he => absurd he (hnone e)

theorem operands_of_init (hinit : (issueBackend p).Init t) : Operands t := by
  have hcoupled := coupled_of_init hinit
  obtain ⟨hwindow, -, hledger, hres⟩ := hinit
  have hnone : ∀ e, e ∉ t.ledger.live := by
    rw [hledger]
    exact fun e => List.not_mem_nil
  constructor
  · exact hcoupled
  · exact fun e he => absurd he (hnone e)
  · intro n _
    rw [hres]
  · exact fun e he => absurd he (hnone e)
  · exact fun e he => absurd he (hnone e)
  · intro r _
    refine ⟨none, ?_, ?_⟩
    · rintro k ⟨e, he, -⟩
      exact absurd he (hnone e)
    · rw [hwindow]
      rfl
  · exact fun e he => absurd he (hnone e)

theorem operands_of_run {past : Sync.Past (BackendTracked p) (BackendInput p)}
    (hrun : Sync.Run (issueBackend p) (boundedEnv p) past t) : Operands t := by
  apply Sync.Run.stateInvariant (P := Operands) ?_ ?_ hrun
  · exact fun t hinit => operands_of_init hinit
  · intro past t i henv hops
    cases hclr : i.clears with
    | true => exact hops.clear henv.1 hclr
    | false =>
      have h : Cycle t i := ⟨hops.coupled, henv.1, henv.2, hclr⟩
      exact h.step_operands hops

/-- What has issued once is marked as issued as long as it is in flight. -/
def IssuedMarked (past : Sync.Past (BackendTracked p) (BackendInput p))
    (t : BackendTracked p) : Prop :=
  ∀ x ∈ past, ∀ f ∈ x.1.ledger.live, f.seq < t.ledger.next ∧
    (x.1.window.issues (x.1.windowInput x.2) f.slot = true →
      ∀ e ∈ t.ledger.live, e.seq = f.seq → (t.window.entry e.slot).issued = true)

theorem Cycle.step_issuedMarked {past : Sync.Past (BackendTracked p) (BackendInput p)}
    (h : Cycle t i) (hmarked : IssuedMarked past t) :
    IssuedMarked ((t, i) :: past) ((issueBackend p).step t i) := by
  intro x hx f hf
  have hlt : f.seq < t.ledger.next := by
    rcases mem_cons.mp hx with rfl | hx
    · exact h.coupled.retire.accounted.live_seq_lt hf
    · exact (hmarked x hx f hf).1
  refine ⟨by rw [h.step_next]; omega, ?_⟩
  intro hissues e he hseq
  rcases h.live_cases he with ⟨j, g, hg, hgone, hkept, rfl⟩ | ⟨lane, hlane, rfl⟩
  · change ((t.window.step (t.windowInput i)).entry g.slot).issued
    rw [h.entry_kept hg hgone hkept]
    change ((t.window.entry g.slot).issued || t.window.issues (t.windowInput i) g.slot)
    rw [Bool.or_eq_true]
    have hgl := mem_of_getElem? hg
    rcases mem_cons.mp hx with rfl | hx
    · rw [h.coupled.seq_inj hgl hf hseq]
      exact .inr hissues
    · exact .inl ((hmarked x hx f hf).2 hissues g hgl hseq)
  · change t.ledger.next + lane.val = f.seq at hseq
    omega

theorem issuedMarked_of_run {past : Sync.Past (BackendTracked p) (BackendInput p)}
    (hrun : Sync.Run (issueBackend p) (boundedEnv p) past t) : IssuedMarked past t := by
  apply Sync.Run.invariant (P := IssuedMarked) ?_ ?_ hrun
  · exact fun t _ x hx => nomatch hx
  · intro past t i hrun henv hmarked
    have hcoupled := coupled_of_run hrun
    cases hclr : i.clears with
    | false => exact Cycle.step_issuedMarked ⟨hcoupled, henv.1, henv.2, hclr⟩ hmarked
    | true =>
      intro x hx f hf
      have hledger : ((issueBackend p).step t i).ledger = t.ledger.flush := by
        change (if i.clears then t.ledger.flush else _) = _
        rw [hclr, if_pos rfl]
      rw [hledger]
      refine ⟨?_, fun _ e he => nomatch he⟩
      rcases mem_cons.mp hx with rfl | hx
      · exact hcoupled.retire.accounted.live_seq_lt hf
      · exact (hmarked x hx f hf).1

end BackendTracked

namespace WindowState

variable {p : WindowParams} {s : WindowState p} {i : WindowInput p} {n : Nat}

/-- A memory pipe is offered a memory operation of its class. -/
theorem memEntry_some {pipe : ExecPipe} (h : s.memEntry i pipe = some n) :
    (s.entry n).payload.isMem ∧ s.memPipe n = pipe := by
  rw [memEntry, or_eq_some_iff] at h
  rcases h with h | ⟨-, h⟩
  · rw [Option.filter_eq_some_iff, and_eq_true, beq_iff_eq] at h
    obtain ⟨_, _, _, hpair, -⟩ := selectMem2_some h.1
    rw [memPairEligible, and_eq_true, and_eq_true] at hpair
    exact ⟨hpair.1.2, h.2.1⟩
  · rw [Option.filter_eq_some_iff, beq_iff_eq] at h
    exact ⟨(selectBy_some h.1).2.2, h.2⟩

/-- EX0 is offered an instruction that is neither hard nor a memory operation. -/
theorem selectEx0_class (h : s.selectEx0 i = some n) :
    (s.entry n).payload.isHard = false ∧ (s.entry n).payload.isMem = false := by
  rw [selectEx0, or_eq_some_iff] at h
  rcases h with h | ⟨-, h⟩
  · have hclass := (selectBy_some h).2.2
    simp only [isFixedEx0, and_eq_true, not_eq_true'] at hclass
    exact hclass.1
  · have hclass := find?_some h
    simp only [isFlexibleAlu, and_eq_true, not_eq_true'] at hclass
    exact hclass.1.2.1

/-- The two execution pipes are never offered the same instruction. -/
theorem selectEx1_ne (h0 : s.selectEx0 i = some n) : s.selectEx1 i ≠ some n := by
  intro h1
  rw [selectEx1, or_eq_some_iff] at h1
  rcases h1 with h1 | ⟨-, h1⟩
  · have hhard := (selectBy_some h1).2.2
    rw [isFixedEx1, (selectEx0_class h0).1] at hhard
    cases hhard
  · have hne := find?_some h1
    rw [h0, and_eq_true] at hne
    exact absurd rfl (bne_iff_ne.mp hne.2)

theorem pipeEntry_inj (hdecoded : (s.entry n).payload.Decoded) {pipe pipe' : ExecPipe}
    (h : s.pipeEntry i pipe = some n) (h' : s.pipeEntry i pipe' = some n) : pipe = pipe' := by
  have hplain : ∀ a, a = .ex0 ∨ a = .ex1 → s.pipeEntry i a = some n →
      (s.entry n).payload.isMem = false := by
    rintro a (rfl | rfl) ha
    · exact (selectEx0_class ha).2
    · rcases (selectEx1_some ha).2.2 with hhard | hflexible
      · exact hdecoded.hard hhard
      · simp only [isFlexibleAlu, and_eq_true, not_eq_true'] at hflexible
        exact hflexible.1.2
  have hmem : ∀ a, a = .mem0 ∨ a = .mem1 → s.pipeEntry i a = some n →
      (s.entry n).payload.isMem ∧ s.memPipe n = a := by
    rintro a (rfl | rfl) ha <;> exact memEntry_some ha
  have hapart : ∀ a b, a = .ex0 ∨ a = .ex1 → b = .mem0 ∨ b = .mem1 →
      s.pipeEntry i a = some n → s.pipeEntry i b = some n → False := by
    intro a b ha hb hna hnb
    have hcon := (hmem b hb hnb).1
    rw [hplain a ha hna] at hcon
    cases hcon
  cases pipe with
  | ex0 =>
    cases pipe' with
    | ex0 => rfl
    | ex1 => exact absurd h' (selectEx1_ne h)
    | mem0 => exact (hapart _ _ (.inl rfl) (.inl rfl) h h').elim
    | mem1 => exact (hapart _ _ (.inl rfl) (.inr rfl) h h').elim
  | ex1 =>
    cases pipe' with
    | ex0 => exact absurd h (selectEx1_ne h')
    | ex1 => rfl
    | mem0 => exact (hapart _ _ (.inr rfl) (.inl rfl) h h').elim
    | mem1 => exact (hapart _ _ (.inr rfl) (.inr rfl) h h').elim
  | mem0 =>
    cases pipe' with
    | ex0 => exact (hapart _ _ (.inl rfl) (.inl rfl) h' h).elim
    | ex1 => exact (hapart _ _ (.inr rfl) (.inl rfl) h' h).elim
    | mem0 => rfl
    | mem1 => exact (hmem _ (.inl rfl) h).2.symm.trans (hmem _ (.inr rfl) h').2
  | mem1 =>
  cases pipe' with
  | ex0 => exact (hapart _ _ (.inl rfl) (.inr rfl) h' h).elim
  | ex1 => exact (hapart _ _ (.inr rfl) (.inr rfl) h' h).elim
  | mem0 => exact (hmem _ (.inr rfl) h).2.symm.trans (hmem _ (.inl rfl) h').2
  | mem1 => rfl

end WindowState

namespace BackendTracked

variable {p : WindowParams} {t : BackendTracked p} {i : BackendInput p}

/-- What the window hands out and keeps in a cycle. -/
structure OperandsRight (past : Sync.Past (BackendTracked p) (BackendInput p))
    (t : BackendTracked p) (i : BackendInput p) : Prop where
  /-- Each source of an instruction that issues is the value of the latest older writer
  in flight, or the committed one. -/
  issued : ∀ e ∈ t.ledger.live, t.window.issues (t.windowInput i) e.slot = true →
    ∀ o, t.uses e.seq o = true →
      ((t.program e.seq).rsAddr o = 0 → (t.window.srcNow (t.windowInput i) e.slot o).data = 0) ∧
      ((t.program e.seq).rsAddr o ≠ 0 →
        Reads (t.flight.answer i.answer) ((t.program e.seq).rsAddr o) e.seq
          (t.window.srcNow (t.windowInput i) e.slot o).data)
  /-- The table names the youngest writer in flight with the result it has handed out. -/
  owner : ∀ r, r ≠ 0 → ((t.window.owner r).valid = false ∧ Settled t.flight r t.ledger.next) ∨
      ∃ m, Producer t.flight r t.ledger.next m ∧ (t.window.owner r).valid = true ∧
        (t.window.owner r).id = idOf p.idWidth m ∧ (t.window.owner r).ready = (t.result m).isSome ∧
        ∀ v, t.result m = some v → (t.window.owner r).data = v
  /-- Who waits, waits for a value that has not been handed out. -/
  waits : ∀ e ∈ t.ledger.live, ∀ o, t.uses e.seq o = true →
    ((t.window.entry e.slot).src o).ready = false →
      ∃ m, Producer t.flight ((t.program e.seq).rsAddr o) e.seq m ∧
        ((t.window.entry e.slot).src o).tag = idOf p.idWidth m ∧ t.result m = none
  onePipe : ∀ e ∈ t.ledger.live, ∀ pipe pipe',
    t.window.pipeEntry (t.windowInput i) pipe = some e.slot →
      t.window.pipeEntry (t.windowInput i) pipe' = some e.slot → pipe = pipe'
  once : ∀ e ∈ t.ledger.live, t.window.issues (t.windowInput i) e.slot = true →
    ∀ x ∈ past, ∀ f ∈ x.1.ledger.live, f.seq = e.seq →
      x.1.window.issues (x.1.windowInput x.2) f.slot = false
  count : t.window.countQ.toNat = (List.range p.depth).countP fun n => (t.window.entry n).valid

/-- In every run within the span of the identifiers the operands are right. -/
theorem operands_right {past : Sync.Past (BackendTracked p) (BackendInput p)}
    (hrun : Sync.Run (issueBackend p) (boundedEnv p) past t) (hpromises : t.Promises i)
    (hbounded : t.Bounded i) : OperandsRight past t i := by
  have hops := operands_of_run hrun
  have h : Promised t i := ⟨hops.coupled, hpromises, hbounded⟩
  have hissued : ∀ e ∈ t.ledger.live, t.window.issues (t.windowInput i) e.slot = true →
      (t.window.entry e.slot).issued = false ∧
        ∀ o, (t.window.srcNow (t.windowInput i) e.slot o).ready = true := by
    intro e _ hissues
    have hbase := (baseEligible_of_issues hissues).1
    simp only [baseEligible, operandsReady, Bool.and_eq_true, Bool.not_eq_true'] at hbase
    refine ⟨hbase.1.1.1.1.1.2, fun o => ?_⟩
    cases o with
    | rs1 => exact hbase.1.1.1.1.2.1
    | rs2 => exact hbase.1.1.1.1.2.2
  constructor
  · intro e he hissues o huses
    have hready := (hissued e he hissues).2 o
    constructor
    · intro hr
      exact (h.srcNow_names (hops.unread e he o (Or.inr hr)) (by intro m hm; cases hm)).2
    · intro hr
      obtain ⟨x, htracks, hnames⟩ := hops.source e he o huses hr
      have hnow := h.srcNow_names hnames (by rintro m rfl; exact htracks.1.live)
      have hwoken := htracks.answer (b := i.answer) fun m hm => h.answer_fresh hm
      cases hx : x.wake i.answer with
      | value v =>
        rw [hx] at hnow hwoken
        rw [hnow.2]
        exact hwoken
      | waits m =>
        rw [hx] at hnow
        have hnot := hnow.1
        rw [hready] at hnot
        cases hnot
  · intro r hr
    obtain ⟨x, howns, hnames⟩ := hops.owner r hr
    rcases x with _ | ⟨m, _ | v⟩
    · exact Or.inl ⟨hnames, howns⟩
    · obtain ⟨hvalid, hid, hready⟩ := hnames
      have hresult : t.result m = none := howns.2
      refine Or.inr ⟨m, howns.1, hvalid, hid, ?_, ?_⟩
      · rw [hready, hresult]
        rfl
      · intro v hv
        rw [hresult] at hv
        cases hv
    · obtain ⟨hvalid, hid, hready, hdata⟩ := hnames
      have hresult : t.result m = some v := howns.2
      refine Or.inr ⟨m, howns.1, hvalid, hid, ?_, ?_⟩
      · rw [hready, hresult]
        rfl
      · intro w hw
        rw [hresult] at hw
        rw [hdata, Option.some.inj hw]
  · intro e he o huses hwaits
    by_cases hr : (t.program e.seq).rsAddr o = 0
    · rw [(hops.unread e he o (Or.inr hr)).1] at hwaits
      cases hwaits
    · obtain ⟨x, htracks, hnames⟩ := hops.source e he o huses hr
      cases x with
      | value v =>
        rw [hnames.1] at hwaits
        cases hwaits
      | waits m => exact ⟨m, htracks.1, hnames.2, htracks.2⟩
  · intro e he pipe pipe' hpipe hpipe'
    apply pipeEntry_inj ?_ hpipe hpipe'
    rw [(hops.coupled.entry e he).2.2]
    exact hops.decoded e he
  · intro e he hissues x hx f hf hseq
    by_contra hcon
    have hmarked := (issuedMarked_of_run hrun x hx f hf).2 (Bool.not_eq_false _ ▸ hcon) e he
      hseq.symm
    rw [(hissued e he hissues).1] at hmarked
    cases hmarked
  · have hcount : (List.range p.depth).countP t.queue.validQ = t.ledger.live.length := by
      rw [List.countP_eq_length_filter]
      exact hops.coupled.retire.valid_count
    rw [hops.coupled.count, ← hcount]
    apply List.countP_congr
    intro n hn
    rw [hops.coupled.valid_eq (List.mem_range.mp hn)]

/-- EX0 takes the writer of x5, which then completes while the branch on x5 issues. -/
def wakeInputs : List (BackendInput smallWindow) :=
  [{ offer smallWindow storeBehindControls 0 3 with
      decodeUsesI := fun lane _ => lane.val == 1 },
    { idle smallWindow with pipeReadyI := fun pipe => pipe == .ex0 }]

def wakeBranch : BackendInput smallWindow :=
  { idle smallWindow with
    completeValidI := fun port => port.val == 0
    completePayloadI := fun _ => ⟨true, false, false, 5, 9⟩
    pipeReadyI := fun pipe => pipe == .ex1 }

theorem operands_right_wake :
    OperandsRight (Sync.exec (issueBackend smallWindow) [] (powerUp smallWindow) wakeInputs).1
      (Sync.exec (issueBackend smallWindow) [] (powerUp smallWindow) wakeInputs).2
      wakeBranch := by
  apply operands_right
  · exact Sync.exec_run_decide wakeInputs (powerUp_init smallWindow) (by decide +kernel)
  · decide +kernel
  · decide +kernel

/-! ## A recovery that drops the oldest writer -/

section Recovery

variable {n slot : Nat}

theorem mispredict_clears (hspec : p.enableSpeculation) : (mispredict p n slot).clears = false := by
  simp [clears, mispredict, idle, hspec]

theorem mispredict_ledger (hspec : p.enableSpeculation) :
    ((issueBackend p).step t (mispredict p n slot)).ledger =
      { live := (keepThrough slot t.ledger.live).map
          (mark (t.retireInput (mispredict p n slot)).completed)
        next := t.ledger.next
        retired := t.ledger.retired
        removed := t.ledger.removed ++ dropThrough slot t.ledger.live } := by
  have hretire := (mispredict_still (p := p) n slot).retireCount t
  have hsq : (mispredict p n slot).selectiveSquash := by
    simp [selectiveSquash, mispredict, hspec]
  have hevent : t.queue.event (t.retireInput (mispredict p n slot)) =
      ⟨0, some slot, (t.retireInput (mispredict p n slot)).completed, []⟩ := by
    have hpins : (t.queueInput (mispredict p n slot)).squashYoungerI := hsq
    rw [RetireQueueState.event, hpins, if_pos rfl, if_pos rfl, hretire]
    rfl
  change (if (mispredict p n slot).clears then t.ledger.flush else t.ledger.advance _) = _
  rw [mispredict_clears hspec, if_low, hevent]
  simp only [RetireLedger.advance, List.drop_zero, numberFrom, List.append_nil,
    List.length_nil, Nat.add_zero, List.take_zero]

/-- The queue keeps its oldest instruction through a recovery. -/
theorem head_kept {e : RetireEntry} (hhead : t.ledger.live.head? = some e)
    (hspec : p.enableSpeculation) :
    e.seq ∈ ((issueBackend p).step t (mispredict p n slot)).flight.live := by
  obtain ⟨rest, hlive⟩ := List.head?_eq_some_iff.mp hhead
  refine ⟨e.mark (t.retireInput (mispredict p n slot)).completed, ?_, rfl⟩
  rw [mispredict_ledger hspec, hlive]
  apply List.mem_map_of_mem
  rw [keepThrough]
  split <;> exact List.mem_cons_self

theorem mispredict_program (m : Nat) :
    ((issueBackend p).step t (mispredict p n slot)).program m = t.program m := by
  have hnone : t.admitLane (mispredict p n slot) m = none := by
    rw [admitLane, find?_eq_none]
    intro lane _ hcon
    rw [and_eq_true] at hcon
    have hopen : true = false := (decodeFire_some hcon.1).2.1
    cases hopen
  rw [program_step, hnone]
  rfl

/-- Without a surviving writer the recovered table has no owner. -/
theorem mispredict_owner {r : BitVec 5} (hspec : p.enableSpeculation)
    (hnone : ∀ k < p.depth, Cycle.ownerCandidate t (mispredict p n slot) r k = false) :
    (((issueBackend p).step t (mispredict p n slot)).window.owner r).valid = false := by
  have hclears : (t.windowInput (mispredict p n slot)).clears = false := by
    have hclr : (mispredict p n slot).clears = false := mispredict_clears hspec
    exact hclr
  have hsq : (t.windowInput (mispredict p n slot)).selectiveSquash := by
    change (true && p.enableSpeculation)
    rw [hspec, Bool.and_self]
  change ((t.window.step (t.windowInput (mispredict p n slot))).owner r).valid = false
  rw [WindowState.step, hclears, hsq, if_low, if_pos rfl]
  change (t.window.survivorOwners (t.windowInput (mispredict p n slot)) r).valid = false
  rw [Cycle.survivorOwners_eq, scan_eq_none_iff.mpr hnone]
  rfl

end Recovery

/-- Recovery at instruction 513 drops instruction 0, and x5 loses its owner. -/
theorem operands_right_fails :
    ¬ ∀ (p : WindowParams) past (t : BackendTracked p) i,
      Sync.Run (issueBackend p) (Sync.cycleEnv fun t i => t.Promises i) past t →
        t.Promises i → OperandsRight past t i := by
  intro hright
  obtain ⟨past, t, hrun, ht⟩ := nested_reached
  have hcoupled := coupled_of_run hrun
  obtain ⟨slot, hpromises, -⟩ := ht.recovery hcoupled rfl (m := 9) (n := 513) rfl rfl rfl
    (by decide)
  have howner := (hright wideWindow _ _ (idle wideWindow)
    (.cycle _ (hrun.mono fun _ _ _ henv => henv.1) hpromises) (idle_promises _)).owner 5 (by decide)
  obtain ⟨e, hhead, hseq⟩ : ∃ e, t.ledger.live.head? = some e ∧ e.seq = 0 := by
    have hmap : (t.ledger.live.map seq).head? = some 0 := by
      rw [ht.live]
      rfl
    rwa [List.head?_map, Option.map_eq_some_iff] at hmap
  have hel := List.mem_of_mem_head? hhead
  have hnone : ∀ k, k < wideWindow.depth →
      Cycle.ownerCandidate t (mispredict wideWindow 513 slot) 5 k = false := by
    intro k hk
    by_contra hcon
    simp only [Cycle.ownerCandidate, WindowState.survives, Bool.not_eq_false,
      Bool.and_eq_true, Bool.not_eq_true'] at hcon
    obtain ⟨⟨⟨⟨hv, -⟩, hyounger⟩, hw⟩, -⟩ := hcon
    obtain ⟨f, hf, rfl⟩ := hcoupled.resident hk hv
    rw [(hcoupled.entry f hf).2.2, ht.program f hf] at hw
    rw [(hcoupled.entry f hf).2.1] at hyounger
    have hzero : f.seq = 0 := by
      cases hb : nestedBranch f.seq with
      | true =>
        rw [branchyProgram_branch hb] at hw
        cases hw
      | false =>
        rw [branchyProgram_plain hb] at hw
        simpa [writesGpr, plainPayload] using hw
    rw [hzero] at hyounger
    revert hyounger
    change ¬ isYounger (idOf instrIdWidth 0) (idOf instrIdWidth 513) = false
    decide
  have hvalid := mispredict_owner rfl hnone
  have hkept := @head_kept wideWindow t 513 slot e hhead rfl
  have hnext : ((issueBackend wideWindow).step t (mispredict wideWindow 513 slot)).ledger.next =
      515 := by
    rw [mispredict_ledger rfl]
    exact ht.next
  rcases howner with ⟨-, hsettled⟩ | ⟨m, -, howned, -⟩
  · apply hsettled e.seq hkept
    · rw [hnext, hseq]
      decide
    · change (((issueBackend wideWindow).step t _).program e.seq).target = some 5
      rw [mispredict_program, ht.program e hel, hseq]
      decide
  · rw [hvalid] at howned
    cases howned

end BackendTracked

end OpenRV64
