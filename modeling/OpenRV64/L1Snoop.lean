/-
Snoops of the shared L1 array while an access waits for the memory.  The tag port serves an
offered invalidation within two cycles, unless a fill has taken the port on the edge on which
the access left the lookup stage; the fill then keeps it until the memory answers.
-/
import OpenRV64.L1Array

namespace OpenRV64

open Sync Sync.Behaviour

/-- A targeted invalidation of an address is offered, and the memory does not answer. -/
structure L1Input.Snoops {p : L1Params} (i : L1Input p) (addr : p.Addr) : Prop where
  valid : i.invalidateValidI
  targeted : i.invalidateAllI = false
  addr : i.invalidateAddrI = addr
  memory : i.memReadyI = false

/-- The surroundings offer nothing but this invalidation. -/
def L1Input.snoop {p : L1Params} (addr : p.Addr) : L1Input p :=
  { (default : L1Input p) with invalidateValidI := true, invalidateAddrI := addr }

theorem L1Input.snoop_snoops {p : L1Params} (addr : p.Addr) :
    (L1Input.snoop addr).Snoops addr := ⟨rfl, rfl, rfl, rfl⟩

namespace L1State

variable {p : L1Params}

/-- A way holds the line of an address. -/
def HoldsLine (s : L1State p) (addr : p.Addr) (way : ℕ) : Prop :=
  s.valid (p.setIndexOf addr) way ∧ s.tagMem way (p.setIndexOf addr) = p.tagOf addr

/-- However the surroundings go on, an invalidation that they hold valid is accepted while the
memory stays silent, and its line is dropped.  An invalidation that has read its tags is the
one that goes on. -/
def SnoopProgress (s : L1State p) : Prop :=
  ∀ (addr : p.Addr) (input : ℕ → L1Input p), (∀ n, (input n).Snoops addr) →
    (s.syncInvalidateProbeQ → s.syncInvalidate.addr = addr) →
    ∃ n, (statesFrom (l1Cache p) s input n).invalidateReadyO (input n) ∧
      ∀ way, ¬ (statesFrom (l1Cache p) s input (n + 1)).HoldsLine addr way

/-- What the snoop probe has read is still so.  One probe owns the port. -/
structure ProbesOk (s : L1State p) : Prop where
  one : s.syncInvalidateProbeQ → s.syncFillProbeQ = false
  set : s.syncInvalidateProbeQ → s.syncInvalidate.set = p.setIndexOf s.syncInvalidate.addr
  tag : s.syncInvalidateProbeQ → s.syncInvalidate.tag = p.tagOf s.syncInvalidate.addr
  read : s.syncInvalidateProbeQ → ∀ way, s.valid s.syncInvalidate.set way →
    s.syncInvalidate.validBits way ∧ s.syncTagReadQ way = s.tagMem way s.syncInvalidate.set

section Steps

variable {s : L1State p} {i : L1Input p}

theorem fillFire_probe (h : s.fillFire i) : s.syncFillProbeQ := by
  simp only [fillFire, fillReadyO, Bool.and_eq_true] at h
  exact h.2.1

theorem fillFire_of_noProbe (h : s.syncFillProbeQ = false) : s.fillFire i = false := by
  simp [fillFire, fillReadyO, h]

/-- Only a fill writes a tag. -/
theorem tagNext_of_noFill (h : s.fillFire i = false) (way set : ℕ) :
    s.tagNext i way set = s.tagMem way set := by
  simp [tagNext, h]

/-- Only a fill makes a line valid. -/
theorem valid_of_noFill (h : s.fillFire i = false) {set way : ℕ}
    (hval : s.validNext i set way) : s.valid set way ∧ s.dropped i set way = false := by
  simp only [validNext, h] at hval
  cases hdrop : s.dropped i set way <;> simp_all

/-- A launched probe has the port for itself. -/
theorem launch_port (h : s.syncInvalidateLaunch i) :
    s.syncFillProbeQ = false ∧ s.syncInvalidateProbeQ = false ∧ s.syncFillLaunch i = false := by
  simp only [syncInvalidateLaunch, syncTagPortAvailable, Bool.and_eq_true, Bool.not_eq_true'] at h
  have hval : i.invalidateValidI := h.1.1.1
  exact ⟨h.2.1.1, h.2.1.2, by simp [syncFillLaunch, hval]⟩

/-- While an invalidation has the port, nothing else reads the tags. -/
theorem tagRead_of_probe (h : s.syncInvalidateProbeQ) :
    s.syncInvalidateLaunch i = false ∧ s.syncFillLaunch i = false ∧
      s.syncTagReadFire i = false := by
  have hport : s.syncTagPortAvailable i = false := by simp [syncTagPortAvailable, h]
  have hreq : s.requestFire i = false := by
    simp [requestFire, reqReadyO, syncRequestBaseReady, h]
  have hlaunch : s.syncInvalidateLaunch i = false := by simp [syncInvalidateLaunch, hport]
  have hfill : s.syncFillLaunch i = false := by simp [syncFillLaunch, hport]
  exact ⟨hlaunch, hfill, by simp [syncTagReadFire, hlaunch, hfill, hreq]⟩

/-- One cycle keeps what the probes have read. -/
theorem ProbesOk.step (h : s.ProbesOk) : (s.step i).ProbesOk := by
  cases hprobe : s.syncInvalidateProbeQ with
  | true =>
    obtain ⟨hlaunch, hfillLaunch, hread⟩ := tagRead_of_probe (i := i) hprobe
    have hfill := fillFire_of_noProbe (i := i) (h.one hprobe)
    have hkept : (s.step i).syncInvalidate = s.syncInvalidate := by simp [L1State.step, hlaunch]
    refine ⟨fun _ => ?_, fun _ => ?_, fun _ => ?_, fun _ way hval => ?_⟩
    · simp [L1State.step, hfill, hfillLaunch, h.one hprobe]
    · rw [hkept, h.set hprobe]
    · rw [hkept, h.tag hprobe]
    · rw [hkept] at hval ⊢
      obtain ⟨hbef, -⟩ := valid_of_noFill hfill hval
      obtain ⟨hbits, htag⟩ := h.read hprobe way hbef
      refine ⟨hbits, ?_⟩
      change (if s.syncTagReadFire i then _ else s.syncTagReadQ way) = s.tagNext i way _
      rw [hread, if_neg Bool.false_ne_true, tagNext_of_noFill hfill, htag]
  | false =>
  cases hlaunch : s.syncInvalidateLaunch i with
  | false =>
    have hno : ¬ (s.step i).syncInvalidateProbeQ := by
      simp [L1State.step, hlaunch, hprobe]
    exact ⟨fun h => absurd h hno, fun h => absurd h hno, fun h => absurd h hno,
      fun h => absurd h hno⟩
  | true =>
    obtain ⟨hfillProbe, -, hfillLaunch⟩ := launch_port hlaunch
    have hfill := fillFire_of_noProbe (i := i) hfillProbe
    have hkept : (s.step i).syncInvalidate = s.capturedInvalidate i := by
      simp [L1State.step, hlaunch]
    refine ⟨fun _ => ?_, fun _ => ?_, fun _ => ?_, fun _ way hval => ?_⟩
    · simp [L1State.step, hfill, hfillLaunch, hfillProbe]
    · rw [hkept]
      rfl
    · rw [hkept]
      rfl
    · rw [hkept] at hval ⊢
      refine ⟨(valid_of_noFill hfill hval).1, ?_⟩
      change (if s.syncTagReadFire i then s.tagMem way (s.syncTagReadSet i)
        else s.syncTagReadQ way) = s.tagNext i way _
      rw [tagNext_of_noFill hfill, syncTagReadFire, syncTagReadSet, hlaunch]
      rfl

theorem ProbesOk.of_run {past : Past (L1State p) (L1Input p)}
    (hrun : Run (l1Cache p) anyEnv past s) : s.ProbesOk := by
  refine hrun.stateInvariant (fun t hreset => ?_) fun _ _ _ _ h => h.step
  have hno : ¬ t.syncInvalidateProbeQ := by simp [hreset.probes.2]
  exact ⟨fun h => absurd h hno, fun h => absurd h hno, fun h => absurd h hno, fun h => absurd h hno⟩

/-! ### One cycle of a snoop -/

variable {addr : p.Addr} (hsnoop : i.Snoops addr) (haccess : s.state = .access)

include hsnoop in
theorem ready_iff_probe : s.invalidateReadyO i = s.syncInvalidateProbeQ := by
  simp [invalidateReadyO, hsnoop.targeted]

include haccess in
theorem fillProbe_stays : (s.step i).syncFillProbeQ = s.syncFillProbeQ := by
  simp [L1State.step, fillFire, fillReadyO, syncFillLaunch, haccess]

include hsnoop haccess

theorem stays_access : (s.step i).state = .access := by
  change s.stateNext i = .access
  simp [stateNext, haccess, hsnoop.memory]

/-- A snoop that has read the tags is accepted, and drops its line. -/
theorem drops_of_probe (hok : s.ProbesOk) (hprobe : s.syncInvalidateProbeQ)
    (haddr : s.syncInvalidate.addr = addr) (way : ℕ) : ¬ (s.step i).HoldsLine addr way := by
  rintro ⟨hval, htag⟩
  have hfill := fillFire_of_noProbe (i := i) (hok.one hprobe)
  have hset : p.setIndexOf addr = s.syncInvalidate.set := by rw [hok.set hprobe, haddr]
  obtain ⟨hbef, hkept⟩ := valid_of_noFill hfill hval
  rw [hset] at hbef hkept
  obtain ⟨hbits, hread⟩ := hok.read hprobe way hbef
  have hsame : s.tagMem way s.syncInvalidate.set = s.syncInvalidate.tag := by
    rw [hok.tag hprobe, haddr, ← htag, hset]
    exact (tagNext_of_noFill hfill way _).symm
  have hfire : s.invalidateFire i := by
    rw [invalidateFire, hsnoop.valid, ready_iff_probe hsnoop, hprobe]
    rfl
  have hdrop : s.dropped i s.syncInvalidate.set way := by
    simp [dropped, invalidates, hfire, haccess, hbef, hbits, hread, hsame]
  exact absurd_low (hkept.symm.trans hdrop)

/-- A snoop that finds the port free reads the tags. -/
theorem probe_of_port (hport : s.syncTagPortAvailable i) :
    (s.step i).syncInvalidateProbeQ ∧ (s.step i).syncInvalidate.addr = addr := by
  have hlaunch : s.syncInvalidateLaunch i := by
    simp [syncInvalidateLaunch, hsnoop.valid, hsnoop.targeted, haccess, hport]
  have hfire : s.invalidateFire i = false := by
    rw [invalidateFire, ready_iff_probe hsnoop, (launch_port hlaunch).2.1, Bool.and_false]
  constructor
  · simp [L1State.step, hlaunch, hfire]
  · simp [L1State.step, hlaunch, capturedInvalidate, hsnoop.addr]

/-- A lookup that keeps the port is classified, and leaves the port to the snoop. -/
theorem port_of_lookup (hfill : s.syncFillProbeQ = false)
    (hprobe : s.syncInvalidateProbeQ = false) (hport : s.syncTagPortAvailable i = false)
    (j : L1Input p) : (s.step i).syncTagPortAvailable j := by
  simp only [syncTagPortAvailable, hfill, hprobe, Bool.not_false, Bool.true_and,
    Bool.or_eq_false_iff, Bool.not_eq_false'] at hport
  obtain ⟨⟨hval, hclassified⟩, hconsume⟩ := hport
  have hcapture : s.syncCapture i = false := by
    simp [syncCapture, requestFire, reqReadyO, syncRequestBaseReady, hsnoop.valid]
  have hclassify : s.syncClassify i := by
    simp [syncClassify, hval, hclassified, hconsume]
  have hlaunch : s.syncInvalidateLaunch i = false := by
    simp [syncInvalidateLaunch, syncTagPortAvailable, hval, hclassified, hconsume]
  have hnxt : (s.step i).syncInvalidateProbeQ = false := by
    simp [L1State.step, hlaunch, hprobe]
  have hcls : (s.step i).syncLookupClassifiedQ := by
    simp [L1State.step, hcapture, hclassify]
  have hfree : (s.step i).syncFillProbeQ = false := (fillProbe_stays haccess).trans hfill
  simp [syncTagPortAvailable, hnxt, hfree, hcls]

end Steps

section Runs

variable {s : L1State p} (haccess : s.state = .access)

include haccess

/-- Without a fill on the port a snoop is served within two cycles. -/
theorem progress_of_noFill (hok : s.ProbesOk) (hfill : s.syncFillProbeQ = false) :
    s.SnoopProgress := by
  intro addr input hsnoop haddr
  cases hprobe : s.syncInvalidateProbeQ with
  | true =>
    exact ⟨0, (ready_iff_probe (hsnoop 0)).trans hprobe,
      drops_of_probe (hsnoop 0) haccess hok hprobe (haddr hprobe)⟩
  | false =>
    have haccess1 := stays_access (hsnoop 0) haccess
    have hok1 := hok.step (i := input 0)
    cases hport : s.syncTagPortAvailable (input 0) with
    | true =>
      obtain ⟨hprobe1, haddr1⟩ := probe_of_port (hsnoop 0) haccess hport
      exact ⟨1, (ready_iff_probe (hsnoop 1)).trans hprobe1,
        drops_of_probe (hsnoop 1) haccess1 hok1 hprobe1 haddr1⟩
    | false =>
      have hport1 := port_of_lookup (hsnoop 0) haccess hfill hprobe hport (input 1)
      obtain ⟨hprobe2, haddr2⟩ := probe_of_port (hsnoop 1) haccess1 hport1
      exact ⟨2, (ready_iff_probe (hsnoop 2)).trans hprobe2,
        drops_of_probe (hsnoop 2) (stays_access (hsnoop 1) haccess1) hok1.step hprobe2 haddr2⟩

/-- A fill on the port keeps every snoop out until the memory answers. -/
theorem blocked_of_fill (hfill : s.syncFillProbeQ) (hprobe : s.syncInvalidateProbeQ = false)
    {addr : p.Addr} {input : ℕ → L1Input p} (hsnoop : ∀ n, (input n).Snoops addr) (n : ℕ) :
    (statesFrom (l1Cache p) s input n).state = .access ∧
      (statesFrom (l1Cache p) s input n).syncFillProbeQ ∧
      (statesFrom (l1Cache p) s input n).syncInvalidateProbeQ = false := by
  induction n with
  | zero => exact ⟨haccess, hfill, hprobe⟩
  | succ n ih =>
    obtain ⟨hst, hfills, hno⟩ := ih
    refine ⟨stays_access (hsnoop n) hst, (fillProbe_stays hst).trans hfills, ?_⟩
    change (L1State.step _ _).syncInvalidateProbeQ = false
    simp [L1State.step, syncInvalidateLaunch, syncTagPortAvailable, hfills, hno]

theorem not_progress_of_fill (hok : s.ProbesOk) (hfill : s.syncFillProbeQ) : ¬ s.SnoopProgress := by
  have hprobe : s.syncInvalidateProbeQ = false :=
    eq_false_of_ne_true fun h => absurd_low ((hok.one h).symm.trans hfill)
  intro hprogress
  have hsnoop : ∀ n : ℕ, ((fun _ => L1Input.snoop 0 : ℕ → L1Input p) n).Snoops 0 :=
    fun _ => L1Input.snoop_snoops 0
  obtain ⟨n, hrdy, -⟩ := hprogress 0 _ hsnoop fun h => absurd (hprobe.symm.trans h)
    Bool.false_ne_true
  obtain ⟨-, -, hno⟩ := blocked_of_fill haccess hfill hprobe hsnoop n
  rw [ready_iff_probe (hsnoop n), hno] at hrdy
  exact Bool.false_ne_true hrdy

end Runs

/-! ### The claimed progress -/

theorem reset_default : (default : L1State p).Reset where
  state := rfl
  valid _ _ := rfl
  aged _ _ := rfl
  replace _ := rfl
  request := ⟨rfl, rfl, rfl, rfl, rfl⟩
  access := ⟨rfl, rfl⟩
  response := ⟨rfl, rfl⟩
  lookup := ⟨rfl, rfl, rfl, rfl⟩
  probes := ⟨rfl, rfl⟩

theorem smallL1_cache_ok : 1024 ≤ 1024 ∧ 1024 ≤ 32768 ∧ 1024 &&& (1024 - 1) = 0 := by decide

theorem smallL1_line_ok : 1 ≤ 64 ∧ 64 &&& (64 - 1) = 0 := by decide

theorem smallL1_ways_ok : 1 ≤ 2 ∧ 2 &&& (2 - 1) = 0 := by decide

theorem smallL1_sets_ok : 1024 % (64 * 2) = 0 := by decide

/-- Eight sets of two ways. -/
def smallL1 : L1Params where
  addrWidth := 32
  lineBytes := 64
  ways := 2
  cacheBytes := 1024
  syncStoreExtension := true
  idealRefills := false
  cache_ok := smallL1_cache_ok
  line_ok := smallL1_line_ok
  ways_ok := smallL1_ways_ok
  sets_ok := smallL1_sets_ok

/-- A posted store, and a fill that arrives as the store leaves the lookup stage. -/
def fillOnStore : List (L1Input smallL1) :=
  [{ (default : L1Input smallL1) with
      reqValidI := true
      reqI := { (default : L1Request smallL1) with
        write := true, cacheable := true, separateWriteResp := true } },
    { (default : L1Input smallL1) with fillValidI := true }]

/-- The array after that fill. -/
def filledOnStore : Past (L1State smallL1) (L1Input smallL1) × L1State smallL1 :=
  exec (l1Cache smallL1) [] default fillOnStore

theorem filledOnStore_run : Run (l1Cache smallL1) anyEnv filledOnStore.1 filledOnStore.2 :=
  exec_run _ (.reset reset_default)

end L1State

end OpenRV64
