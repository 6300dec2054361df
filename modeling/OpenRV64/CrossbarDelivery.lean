/-
What goes through the line crossbar.  Commands keep the order of their hart, the data of
one command is never cut by another's, responses go to the hart they name, and a command
that no write data holds back waits for every other hart once at most.
-/
import OpenRV64.LineCrossbar

namespace OpenRV64

open RotatingPriority Interleave Sync
open List (not_mem_nil append_nil find?_some range mem_cons)
open Bool (and_eq_true)
open CrossbarInput (hartRespValidO memRespReadyO hartRespO)

/-- What the harts send: their commands in order, and the data of each command. -/
structure HartTraffic (p : CrossbarParams) where
  command : Fin p.numHarts → ℕ → LineCommand
  wdata : Fin p.numHarts → ℕ → ℕ → LineData
  wstrb : Fin p.numHarts → ℕ → ℕ → LineStrobe

namespace HartTraffic

variable {p : CrossbarParams} (t : HartTraffic p)

/-- Beat `b` of command `k` of a hart. -/
def beat (h : Fin p.numHarts) (k b : ℕ) : LineWdata where
  hartId := p.strap h
  txnId := (t.command h k).txnId
  sourceId := (t.command h k).sourceId
  beatIndex := BitVec.ofNat 8 b
  last := decide (b = (t.command h k).burstLen.toNat)
  wdata := t.wdata h k b
  wstrb := t.wstrb h k b

/-- The beats that follow a command. -/
def beats (h : Fin p.numHarts) (k : ℕ) : List LineWdata :=
  if (t.command h k).carriesData then
    (List.range ((t.command h k).burstLen.toNat + 1)).map (t.beat h k)
  else []

/-- A command as the memory side is to see it. -/
def forwardedAs (e : Fin p.numHarts × ℕ) : LineCommand :=
  { t.command e.1 e.2 with hartId := p.strap e.1 }

variable {t}

section

variable {h : Fin p.numHarts} {k : ℕ}

theorem beats_of_carries (hc : (t.command h k).carriesData) :
    t.beats h k = (range ((t.command h k).burstLen.toNat + 1)).map (t.beat h k) :=
  if_pos hc

theorem beats_of_not_carries (hc : (t.command h k).carriesData = false) : t.beats h k = [] := by
  rw [beats, hc, if_low]

theorem length_beats (hc : (t.command h k).carriesData) :
    (t.beats h k).length = (t.command h k).burstLen.toNat + 1 := by
  rw [beats_of_carries hc, List.length_map, List.length_range]

theorem hartId_of_mem_beats {b : LineWdata} (hb : b ∈ t.beats h k) : b.hartId = p.strap h := by
  rw [beats] at hb
  split_ifs at hb
  · obtain ⟨j, -, rfl⟩ := List.mem_map.mp hb
    rfl
  · exact absurd hb (not_mem_nil)

end

theorem take_beats_succ {h : Fin p.numHarts} {k j : ℕ} (hc : (t.command h k).carriesData)
    (hj : j ≤ (t.command h k).burstLen.toNat) :
    (t.beats h k).take (j + 1) = (t.beats h k).take j ++ [t.beat h k j] := by
  have hlt : j < (t.beats h k).length := by
    rw [length_beats hc]
    omega
  rw [List.take_succ_eq_append_getElem hlt]
  congr 2
  simp [beats_of_carries hc]

end HartTraffic

theorem CrossbarParams.strap_injective (p : CrossbarParams) : Function.Injective p.strap := by
  intro a b h
  have hbound := p.ids_ok
  have hnat := congrArg BitVec.toNat h
  simp only [strap, BitVec.toNat_ofNat] at hnat
  apply Fin.ext
  omega

namespace CrossbarState

variable {p : CrossbarParams}

/-- How many commands of a hart have been accepted. -/
def sent (past : Sync.Past (CrossbarState p) (CrossbarInput p)) (h : Fin p.numHarts) : ℕ :=
  past.countP fun e => e.2.hartReqValidI h && e.1.hartReqReadyO e.2 h

/-- The beats a hart has handed over. -/
def handed (h : Fin p.numHarts) : Sync.Past (CrossbarState p) (CrossbarInput p) → List LineWdata :=
  log fun s i =>
    if i.hartWdataValidI h && s.hartWdataReadyO i h then [i.hartWdataI h] else []

/-- The commands the memory side has accepted. -/
def forwarded : Sync.Past (CrossbarState p) (CrossbarInput p) → List LineCommand :=
  log fun s i => if s.commandFire i then [s.memReqO i] else []

/-- The beats the memory side has accepted. -/
def forwardedBeats : Sync.Past (CrossbarState p) (CrossbarInput p) → List LineWdata :=
  log fun s i => if s.wdataFire i then [s.memWdataO i] else []

/-- The responses taken from the memory side. -/
def taken : Sync.Past (CrossbarState p) (CrossbarInput p) → List LineResponse :=
  log fun _ i => if i.memRespValidI && i.memRespReadyO then [i.memRespI] else []

/-- The responses a hart has accepted. -/
def delivered (h : Fin p.numHarts) :
    Sync.Past (CrossbarState p) (CrossbarInput p) → List LineResponse :=
  log fun _ i => if i.hartRespValidO h && i.hartRespReadyI h then [i.hartRespO h] else []

/-- The harts present their traffic: each command behind the one accepted before it, each
beat behind the ones handed over before it, and nothing is withdrawn. -/
structure Offers (t : HartTraffic p) (past : Sync.Past (CrossbarState p) (CrossbarInput p))
    (_ : CrossbarState p) (i : CrossbarInput p) : Prop where
  command : ∀ h, i.hartReqValidI h = true → i.hartReqI h = t.command h (sent past h)
  beat : ∀ h, i.hartWdataValidI h = true →
    ∃ k, handed h past ++ [i.hartWdataI h] <+: blocks (t.beats h) k
  held : ∀ e ∈ past.head?, ∀ h, e.2.hartReqValidI h = true → e.1.hartReqReadyO e.2 h = false →
    i.hartReqValidI h = true
  heldBeat : ∀ e ∈ past.head?, ∀ h, e.2.hartWdataValidI h = true →
    e.1.hartWdataReadyO e.2 h = false → i.hartWdataValidI h = true

/-- How often the command a hart is presenting has been passed over by the grant of another
one although it could have gone. -/
def passes (h : Fin p.numHarts) : Sync.Past (CrossbarState p) (CrossbarInput p) → ℕ
  | [] => 0
  | (s, i) :: past =>
    if i.hartReqValidI h && !s.hartReqReadyO i h then
      passes h past + if s.eligible i h && s.commandFire i then 1 else 0
    else 0

variable {s : CrossbarState p} {i : CrossbarInput p}

theorem grant_spec {g : Fin p.numHarts} (h : s.grant i = some g) :
    i.hartReqValidI g ∧ s.eligible i g := by
  simpa using find?_some h

theorem grantHart_of_grant {g : Fin p.numHarts} (h : s.grant i = some g) : s.grantHart i = g := by
  rw [grantHart, h, Option.getD_some]

theorem grant_of_commandFire (h : s.commandFire i) :
    s.grant i = some (s.grantHart i) ∧ i.memReqReadyI := by
  rw [commandFire, and_eq_true, memReqValidO] at h
  obtain ⟨g, hg⟩ := Option.isSome_iff_exists.mp h.1
  exact ⟨by rw [grantHart_of_grant hg, hg], h.2⟩

/-- A hart's handshake is the memory side's handshake for the granted hart. -/
theorem hartReqReadyO_eq (h : Fin p.numHarts) :
    s.hartReqReadyO i h = (s.commandFire i && decide (s.grantHart i = h)) := by
  rw [hartReqReadyO, commandFire, memReqValidO]
  by_cases heq : s.grantHart i = h
  · simp [heq]
  · simp [heq]

theorem accepted_eq (h : Fin p.numHarts) : (i.hartReqValidI h && s.hartReqReadyO i h) =
      (s.commandFire i && decide (s.grantHart i = h)) := by
  rw [hartReqReadyO_eq]
  by_cases hfire : s.commandFire i ∧ s.grantHart i = h
  · obtain ⟨hfire, rfl⟩ := hfire
    simp [(grant_spec (grant_of_commandFire hfire).1).1]
  · rw [not_and] at hfire
    cases hcf : s.commandFire i with
    | true => simp [hfire hcf]
    | false => simp

theorem sent_cons_fire {past : Sync.Past (CrossbarState p) (CrossbarInput p)}
    (hfire : s.commandFire i) :
    sent ((s, i) :: past) =
      Function.update (sent past) (s.grantHart i) (sent past (s.grantHart i) + 1) := by
  funext h
  rw [sent, List.countP_cons]
  simp only [accepted_eq, hfire, Bool.true_and]
  by_cases heq : s.grantHart i = h
  · subst heq
    rw [Function.update_self]
    simp [sent, accepted_eq]
  · rw [Function.update_of_ne (Ne.symm heq)]
    simp [sent, accepted_eq, heq]

theorem sent_cons_idle {past : Sync.Past (CrossbarState p) (CrossbarInput p)}
    (hfire : s.commandFire i = false) : sent ((s, i) :: past) = sent past := by
  funext h
  rw [sent, List.countP_cons]
  simp [sent, accepted_eq, hfire]

theorem active_of_wdataFire (h : s.wdataFire i) : s.wdataActiveQ := by
  simp only [wdataFire, memWdataValidO, selectedWdataValid, and_eq_true] at h
  exact h.1.1.1

/-- A granted command with data finds the data channel free. -/
theorem free_of_carries (hfire : s.commandFire i)
    (hdata : (s.memReqO i).carriesData) : s.wdataActiveQ = false := by
  have helig := (grant_spec (grant_of_commandFire hfire).1).2
  have hcarry : (i.hartReqI (s.grantHart i)).carriesData := hdata
  simpa [eligible, hcarry] using helig

/-- The owner's handshake is the memory side's handshake for the beat of the owner. -/
theorem handedOver_eq (h : Fin p.numHarts) : (i.hartWdataValidI h && s.hartWdataReadyO i h) =
      (s.wdataFire i && decide (s.wdataHartQ = h)) := by
  rw [hartWdataReadyO, wdataFire, memWdataValidO, selectedWdataValid]
  by_cases heq : s.wdataHartQ = h
  · subst heq
    cases s.wdataActiveQ <;> cases i.hartWdataValidI s.wdataHartQ <;> simp
  · simp [heq]

/-- The beat put out is the owner's own: the identities agree. -/
theorem memWdataO_eq (hfire : s.wdataFire i) : s.memWdataO i = i.hartWdataI s.wdataHartQ := by
  simp only [wdataFire, memWdataValidO, selectedWdataIdentityMatch, and_eq_true,
    beq_iff_eq] at hfire
  obtain ⟨⟨-, ⟨⟨hid, htxn⟩, hsrc⟩, hidx⟩, -⟩ := hfire
  rw [memWdataO, ← hid, ← htxn, ← hsrc, ← hidx]

/-! ## One owner of the data channel -/

/-- The data of the command `e` is under way: everything before it is complete, nothing
behind it has data, and `wdata_beat_q` beats of it have gone. -/
structure Underway (t : HartTraffic p) (s : CrossbarState p) (fb : List LineWdata)
    (done : List (Fin p.numHarts × ℕ)) (e : Fin p.numHarts × ℕ)
    (post : List (Fin p.numHarts × ℕ)) : Prop where
  carries : (t.command e.1 e.2).carriesData = true
  quiet : ∀ e' ∈ post, t.beats e'.1 e'.2 = []
  hart : s.wdataHartQ = e.1
  txn : s.wdataTxnIdQ = (t.command e.1 e.2).txnId
  source : s.wdataSourceIdQ = (t.command e.1 e.2).sourceId
  burst : s.wdataBurstLenQ = (t.command e.1 e.2).burstLen
  beat : s.wdataBeatQ.toNat ≤ (t.command e.1 e.2).burstLen.toNat
  forwarded : fb = spliced t.beats done ++ (t.beats e.1 e.2).take s.wdataBeatQ.toNat

/-- The beats `fb` that have gone out are whole blocks of the commands in `order`, but for
the command that owns the data channel. -/
inductive Owned (t : HartTraffic p) (s : CrossbarState p) (fb : List LineWdata)
    (order : List (Fin p.numHarts × ℕ)) : Prop
  | free (hfree : s.wdataActiveQ = false) (hbeats : fb = spliced t.beats order)
  | held (hheld : s.wdataActiveQ = true) {done : List (Fin p.numHarts × ℕ)}
      {e : Fin p.numHarts × ℕ} {post : List (Fin p.numHarts × ℕ)}
      (horder : order = done ++ e :: post) (hunder : Underway t s fb done e post)

variable {t : HartTraffic p} {fb : List LineWdata} {order : List (Fin p.numHarts × ℕ)}

theorem spliced_quiet {post : List (Fin p.numHarts × ℕ)}
    (h : ∀ e ∈ post, t.beats e.1 e.2 = []) : spliced t.beats post = [] := by
  rw [spliced, List.flatMap_eq_nil_iff]
  exact h

/-- Nothing is cut and nothing goes ahead of its command. -/
theorem Owned.isPrefix (h : Owned t s fb order) : fb <+: spliced t.beats order := by
  cases h with
  | free _ hbeats => rw [hbeats]
  | held _ horder hund =>
    rw [horder, hund.forwarded, spliced_append]
    apply (List.prefix_append_right_inj _).mpr
    exact (List.take_prefix _ _).trans (List.prefix_append _ _)

/-- A command without data changes nothing about the beats. -/
theorem Owned.command_quiet {e : Fin p.numHarts × ℕ} (h : Owned t s fb order)
    (he : t.beats e.1 e.2 = []) : Owned t s fb (order ++ [e]) := by
  cases h with
  | free hfree hbeats =>
    refine .free hfree ?_
    have hquiet : spliced t.beats [e] = [] := spliced_quiet (by simpa using he)
    rw [hbeats, spliced_append, hquiet, append_nil]
  | @held hheld done first post horder hund =>
    have horder' : order ++ [e] = done ++ first :: (post ++ [e]) := by
      rw [horder, List.append_assoc, List.cons_append]
    refine .held hheld horder' { hund with quiet := ?_ }
    intro e' he'
    rcases List.mem_append.mp he' with hmem | hmem
    · exact hund.quiet e' hmem
    · rw [List.mem_singleton.mp hmem]
      exact he

/-- The registers of the data channel. -/
structure SameOwner (s s' : CrossbarState p) : Prop where
  active : s'.wdataActiveQ = s.wdataActiveQ
  hart : s'.wdataHartQ = s.wdataHartQ
  txn : s'.wdataTxnIdQ = s.wdataTxnIdQ
  source : s'.wdataSourceIdQ = s.wdataSourceIdQ
  burst : s'.wdataBurstLenQ = s.wdataBurstLenQ
  beat : s'.wdataBeatQ = s.wdataBeatQ

theorem Owned.congr {s' : CrossbarState p} (h : Owned t s fb order) (hsame : SameOwner s s') :
    Owned t s' fb order := by
  cases h with
  | free hfree hbeats => exact .free (hsame.active.trans hfree) hbeats
  | held hheld horder hund =>
    refine .held (hsame.active.trans hheld) horder ⟨hund.carries, hund.quiet, ?_, ?_, ?_, ?_,
      ?_, ?_⟩
    · exact hsame.hart.trans hund.hart
    · exact hsame.txn.trans hund.txn
    · exact hsame.source.trans hund.source
    · exact hsame.burst.trans hund.burst
    · rw [hsame.beat]
      exact hund.beat
    · rw [hsame.beat]
      exact hund.forwarded

/-- A command with data takes the free data channel. -/
theorem Owned.command_carries {k : ℕ} (h : Owned t s fb order) (hfire : s.commandFire i)
    (hcmd : i.hartReqI (s.grantHart i) = t.command (s.grantHart i) k)
    (hdata : (t.command (s.grantHart i) k).carriesData) :
    Owned t (s.step i) fb (order ++ [(s.grantHart i, k)]) := by
  have hcarry : (s.memReqO i).carriesData := by
    show (i.hartReqI (s.grantHart i)).carriesData
    rw [hcmd]
    exact hdata
  have hfree := free_of_carries hfire hcarry
  have hquiet : s.wdataFire i = false := by
    cases hw : s.wdataFire i with
    | true => rw [active_of_wdataFire hw] at hfree; cases hfree
    | false => rfl
  have hstep : s.step i =
      { s with
        roundRobinQ := next (s.grantHart i)
        wdataActiveQ := true
        wdataHartQ := s.grantHart i
        wdataTxnIdQ := (s.memReqO i).txnId
        wdataSourceIdQ := (s.memReqO i).sourceId
        wdataBurstLenQ := (s.memReqO i).burstLen
        wdataBeatQ := 0 } := by
    rw [step, hquiet, if_low, commandStep, if_pos hfire, if_pos hcarry]
  have hbeats : fb = spliced t.beats order := by
    cases h with
    | free _ hbeats => exact hbeats
    | held hheld _ _ => rw [hfree] at hheld; cases hheld
  have hund : Underway t (s.step i) fb order (s.grantHart i, k) [] := by
    rw [hstep]
    refine ⟨hdata, by simp, rfl, ?_, ?_, ?_, Nat.zero_le _, ?_⟩
    · show (i.hartReqI (s.grantHart i)).txnId = _
      rw [hcmd]
    · show (i.hartReqI (s.grantHart i)).sourceId = _
      rw [hcmd]
    · show (i.hartReqI (s.grantHart i)).burstLen = _
      rw [hcmd]
    · rw [hbeats]
      simp
  exact .held (by rw [hstep]) rfl hund

/-- The command channel leaves the owner of the data channel alone while it is owned. -/
theorem sameOwner_commandStep (hact : s.wdataActiveQ) : SameOwner s (s.commandStep i) := by
  rw [commandStep]
  split_ifs with hfire hdata
  · rw [free_of_carries hfire hdata] at hact
    cases hact
  · exact ⟨rfl, rfl, rfl, rfl, rfl, rfl⟩
  · exact ⟨rfl, rfl, rfl, rfl, rfl, rfl⟩

theorem Owned.data (h : Owned t s fb order) (hfire : s.wdataFire i)
    (hnxt : ∀ done e post, order = done ++ e :: post → Underway t s fb done e post →
      s.memWdataO i = t.beat e.1 e.2 s.wdataBeatQ.toNat) :
    Owned t (s.step i) (fb ++ [s.memWdataO i]) order := by
  have hact := active_of_wdataFire hfire
  have hsame := sameOwner_commandStep (i := i) hact
  cases h with
  | free hfree _ => rw [hfree] at hact; cases hact
  | @held _ done e post horder hund =>
    have hgone : fb ++ [s.memWdataO i] =
        spliced t.beats done ++ (t.beats e.1 e.2).take (s.wdataBeatQ.toNat + 1) := by
      rw [HartTraffic.take_beats_succ hund.carries hund.beat, ← List.append_assoc,
        ← hund.forwarded, hnxt done e post horder hund]
    rw [step, if_pos hfire]
    by_cases hlast : s.wdataBurstLenQ ≤ s.wdataBeatQ
    · rw [if_pos hlast]
      rw [hund.burst, BitVec.le_def] at hlast
      refine .free rfl ?_
      rw [hgone, horder, spliced_append, List.take_of_length_le]
      · rw [spliced, spliced, List.flatMap_cons]
        rw [List.flatMap_eq_nil_iff.mpr hund.quiet, append_nil]
      · rw [HartTraffic.length_beats hund.carries]
        omega
    rw [if_neg hlast]
    rw [hund.burst, BitVec.le_def] at hlast
    have hsucc : (s.wdataBeatQ + 1).toNat = s.wdataBeatQ.toNat + 1 := by
      have hone : (1 : BitVec 8).toNat = 1 := rfl
      rw [BitVec.toNat_add, hone]
      exact Nat.mod_eq_of_lt (by omega)
    refine .held (hsame.active.trans hact) horder ?_
    refine ⟨hund.carries, hund.quiet, hsame.hart.trans hund.hart,
      hsame.txn.trans hund.txn, hsame.source.trans hund.source,
      hsame.burst.trans hund.burst, ?_, ?_⟩
    · show (s.wdataBeatQ + 1).toNat ≤ _
      omega
    · rw [hsucc]
      exact hgone

/-! ## The books of a run -/

/-- What the run has sent, and in which order. -/
structure Books (t : HartTraffic p) (past : Sync.Past (CrossbarState p) (CrossbarInput p))
    (s : CrossbarState p) (order : List (Fin p.numHarts × ℕ)) : Prop where
  inOrder : InOrder order (sent past)
  commands : forwarded past = order.map t.forwardedAs
  owned : Owned t s (forwardedBeats past) order
  handed : ∀ h, handed h past = (forwardedBeats past).filter fun b => decide (b.hartId = p.strap h)

variable {past : Sync.Past (CrossbarState p) (CrossbarInput p)}

theorem Books.reset (hreset : s.Reset) : Books t [] s [] where
  inOrder := InOrder.nil
  commands := rfl
  owned := .free hreset.inactive rfl
  handed _ := rfl

/-- The beat the owner presents is the next one of the command that owns the channel. -/
theorem Books.next_beat (h : Books t past s order) (hoffers : Offers t past s i)
    (hfire : s.wdataFire i) {done : List (Fin p.numHarts × ℕ)}
    {e : Fin p.numHarts × ℕ} {post : List (Fin p.numHarts × ℕ)}
    (horder : order = done ++ e :: post)
    (hund : Underway t s (forwardedBeats past) done e post) :
    s.memWdataO i = t.beat e.1 e.2 s.wdataBeatQ.toNat := by
  have hown : ∀ y k, ∀ b ∈ t.beats y k, ∀ z, decide (b.hartId = p.strap z) = decide (y = z) := by
    intro y k b hb z
    rw [HartTraffic.hartId_of_mem_beats hb]
    exact decide_eq_decide.mpr p.strap_injective.eq_iff
  have hpart : ∀ b ∈ (t.beats e.1 e.2).take s.wdataBeatQ.toNat,
      decide (b.hartId = p.strap e.1) := by
    intro b hb
    rw [hown e.1 e.2 b (List.mem_of_mem_take hb)]
    exact decide_eq_true rfl
  have hhanded : CrossbarState.handed e.1 past =
      blocks (t.beats e.1) e.2 ++ (t.beats e.1 e.2).take s.wdataBeatQ.toNat := by
    rw [h.handed e.1, hund.forwarded, List.filter_append, List.filter_eq_self.mpr hpart]
    congr 1
    exact filter_spliced hown (h.inOrder.before horder)
  have hval : i.hartWdataValidI e.1 := by
    have hsplit := handedOver_eq (s := s) (i := i) e.1
    rw [hfire, hund.hart, decide_eq_true rfl, Bool.and_true, and_eq_true] at hsplit
    exact hsplit.1
  obtain ⟨k, hprefix⟩ := hoffers.beat e.1 hval
  rw [hhanded] at hprefix
  have hlen := HartTraffic.length_beats hund.carries
  have hbeat := hund.beat
  have hnxt := next_of_prefix (by omega) hprefix
  rw [HartTraffic.take_beats_succ hund.carries hund.beat] at hnxt
  rw [memWdataO_eq hfire, hund.hart]
  exact List.singleton_inj.mp (List.append_cancel_left hnxt)

theorem Books.beat_fire (h : Books t past s order) (hoffers : Offers t past s i)
    (hfire : s.wdataFire i) : Owned t (s.step i) (forwardedBeats ((s, i) :: past)) order := by
  have hlog : forwardedBeats ((s, i) :: past) = forwardedBeats past ++ [s.memWdataO i] := by
    rw [forwardedBeats, log_cons, if_pos hfire]
  rw [hlog]
  exact h.owned.data hfire fun _ _ _ => h.next_beat hoffers hfire

theorem forwardedBeats_quiet (hquiet : s.wdataFire i = false) :
    forwardedBeats ((s, i) :: past) = forwardedBeats past := by
  rw [forwardedBeats, log_cons, hquiet, if_low, append_nil]

theorem step_of_quiet (hquiet : s.wdataFire i = false) : s.step i = s.commandStep i := by
  rw [step, hquiet, if_low]

theorem Books.owned_step (h : Books t past s order) (hoffers : Offers t past s i) :
    Owned t (s.step i) (forwardedBeats ((s, i) :: past))
      (if s.commandFire i then order ++ [(s.grantHart i, sent past (s.grantHart i))]
        else order) := by
  cases hfire : s.commandFire i with
  | false =>
    rw [if_low]
    cases hw : s.wdataFire i with
    | true => exact h.beat_fire hoffers hw
    | false =>
      rw [forwardedBeats_quiet hw, step_of_quiet hw, commandStep, hfire, if_low]
      exact h.owned
  | true =>
    rw [if_pos rfl]
    have hcmd := hoffers.command _ (grant_spec (grant_of_commandFire hfire).1).1
    cases hdata : (t.command (s.grantHart i) (sent past (s.grantHart i))).carriesData with
    | true =>
      have hcarry : (s.memReqO i).carriesData := by
        show (i.hartReqI (s.grantHart i)).carriesData
        rw [hcmd]
        exact hdata
      have hquiet : s.wdataFire i = false := by
        have hfree := free_of_carries hfire hcarry
        cases hw : s.wdataFire i with
        | true => rw [active_of_wdataFire hw] at hfree; cases hfree
        | false => rfl
      rw [forwardedBeats_quiet hquiet]
      exact h.owned.command_carries hfire hcmd hdata
    | false =>
      have hnone := HartTraffic.beats_of_not_carries hdata
      cases hw : s.wdataFire i with
      | true => exact (h.beat_fire hoffers hw).command_quiet hnone
      | false =>
        have hcarry : (s.memReqO i).carriesData = false := by
          show (i.hartReqI (s.grantHart i)).carriesData = false
          rw [hcmd]
          exact hdata
        rw [forwardedBeats_quiet hw, step_of_quiet hw, commandStep, if_pos hfire, hcarry, if_low]
        exact (h.owned.command_quiet hnone).congr ⟨rfl, rfl, rfl, rfl, rfl, rfl⟩

/-- Whatever a hart hands over is what the memory side accepts under its id. -/
theorem handed_step (h : Fin p.numHarts)
    (hpast : handed h past = (forwardedBeats past).filter fun b => decide (b.hartId = p.strap h)) :
    handed h ((s, i) :: past) =
      (forwardedBeats ((s, i) :: past)).filter fun b => decide (b.hartId = p.strap h) := by
  rw [handed] at hpast ⊢
  rw [forwardedBeats] at hpast ⊢
  rw [log_cons, log_cons, List.filter_append, hpast, handedOver_eq]
  congr 1
  cases hfire : s.wdataFire i with
  | false => rfl
  | true =>
    have hid : (s.memWdataO i).hartId = p.strap s.wdataHartQ := rfl
    rw [Bool.true_and, if_pos rfl, List.filter_singleton, hid]
    by_cases heq : s.wdataHartQ = h
    · rw [heq, decide_eq_true rfl, decide_eq_true rfl, if_pos rfl, memWdataO_eq hfire, heq]
      rfl
    · have hne : p.strap s.wdataHartQ ≠ p.strap h := fun he => heq (p.strap_injective he)
      rw [decide_eq_false heq, decide_eq_false hne]
      rfl

theorem Books.step (h : Books t past s order) (hoffers : Offers t past s i) :
    ∃ order', Books t ((s, i) :: past) (s.step i) order' := by
  refine ⟨_, ?_, ?_, h.owned_step hoffers, fun x => handed_step x (h.handed x)⟩
  · cases hfire : s.commandFire i with
    | false =>
      rw [if_low, sent_cons_idle hfire]
      exact h.inOrder
    | true =>
      rw [if_pos rfl, sent_cons_fire hfire]
      exact h.inOrder.append _
  · rw [forwarded, log_cons]
    have hpast : log _ past = _ := h.commands
    rw [hpast]
    cases hfire : s.commandFire i with
    | false => rw [if_low, if_low, append_nil]
    | true =>
      rw [if_pos rfl, if_pos rfl, List.map_append, List.map_singleton, HartTraffic.forwardedAs,
        ← hoffers.command _ (grant_spec (grant_of_commandFire hfire).1).1]
      rfl

/-! ## Responses -/

theorem responseHart_eq (h : Fin p.numHarts) :
    i.responseHart = some h ↔ i.memRespI.hartId = p.strap h := by
  constructor
  · intro hfind
    simpa using find?_some hfind
  · intro hid
    have hsome : i.responseHart.isSome :=
      List.find?_isSome.mpr ⟨h, List.mem_finRange h, by rw [hid]; exact beq_self_eq_true _⟩
    obtain ⟨h', hfind⟩ := Option.isSome_iff_exists.mp hsome
    have hid' : i.memRespI.hartId = p.strap h' := by simpa using find?_some hfind
    rw [hfind, p.strap_injective (hid'.symm.trans hid)]

/-- A response is taken in the cycle its hart accepts it. -/
theorem delivered_eq (h : Fin p.numHarts) :
    delivered h past = (taken past).filter fun r => decide (r.hartId = p.strap h) := by
  rw [taken, log_filter, delivered]
  congr 1
  funext s i
  by_cases hid : i.memRespI.hartId = p.strap h
  · have hhart := (responseHart_eq h).mpr hid
    simp only [hartRespValidO, hartRespO,
      memRespReadyO, hhart, beq_self_eq_true, Bool.true_and, if_true]
    split_ifs
    · rw [List.filter_singleton, decide_eq_true hid]
      rfl
    · rfl
  have hhart : i.responseHart ≠ some h := fun he => hid ((responseHart_eq h).mp he)
  have hval : i.hartRespValidO h = false := by
    rw [hartRespValidO, beq_eq_false_iff_ne.mpr hhart, Bool.false_and]
  rw [hval, Bool.false_and, if_low]
  split_ifs
  · rw [List.filter_singleton, decide_eq_false hid]
    rfl
  · rfl

theorem names_of_taken {r : LineResponse} (hr : r ∈ taken past) : ∃ h, r.hartId = p.strap h := by
  induction past with
  | nil => cases hr
  | cons e past ih =>
    obtain ⟨s, i⟩ := e
    rw [taken, log_cons, List.mem_append] at hr
    rcases hr with hr | hr
    · exact ih hr
    split_ifs at hr with hfire
    · rw [List.mem_singleton.mp hr]
      rw [and_eq_true, memRespReadyO] at hfire
      cases hhart : i.responseHart with
      | none => rw [hhart] at hfire; exact absurd_low hfire.2
      | some h => exact ⟨h, (responseHart_eq h).mp hhart⟩
    · cases hr

/-! ## Fairness -/

/-- A grant made while other write data holds the command of `h` back does not move the
pointer past `h`. -/
def KeepsPlace (h : Fin p.numHarts) (s : CrossbarState p) (i : CrossbarInput p) : Prop :=
  s.eligible i h = false → s.commandFire i = true →
    ahead (next (s.grantHart i)) h ≤ ahead s.roundRobinQ h

/-- The command `h` is presenting has kept its place for as long as it has been presented. -/
def KeptPlace (h : Fin p.numHarts) : Sync.Past (CrossbarState p) (CrossbarInput p) → Prop
  | [] => True
  | (s, i) :: past => i.hartReqValidI h = true → s.hartReqReadyO i h = false →
      KeepsPlace h s i ∧ KeptPlace h past

theorem roundRobinQ_step :
    (s.step i).roundRobinQ = if s.commandFire i then next (s.grantHart i) else s.roundRobinQ := by
  rw [step, commandStep]
  split_ifs <;> rfl

/-- Every pass brings the hart that is passed over forward. -/
theorem passes_step (h : Fin p.numHarts)
    (hbound : KeptPlace h past → passes h past + ahead s.roundRobinQ h < p.numHarts)
    (hkept : KeptPlace h ((s, i) :: past)) :
    passes h ((s, i) :: past) + ahead (s.step i).roundRobinQ h < p.numHarts := by
  have hlt := ahead_lt (s.step i).roundRobinQ h
  rw [passes]
  split_ifs with hwaits hpass
  · obtain ⟨hval, hrdy⟩ : i.hartReqValidI h ∧ s.hartReqReadyO i h = false := by
      simpa using hwaits
    obtain ⟨helig, hfire⟩ : s.eligible i h ∧ s.commandFire i := by
      simpa using hpass
    have hpast := hbound (hkept hval hrdy).2
    rw [hartReqReadyO_eq, hfire, Bool.true_and, decide_eq_false_iff_not] at hrdy
    have hgr := (grant_of_commandFire hfire).1
    have hle := ahead_le_of_find hgr (x := h) (by rw [hval, helig]; rfl)
    have hfwd := next_ahead_lt hrdy hle
    rw [roundRobinQ_step, if_pos hfire]
    omega
  · obtain ⟨hval, hrdy⟩ : i.hartReqValidI h ∧ s.hartReqReadyO i h = false := by
      simpa using hwaits
    obtain ⟨hkeeps, hpast⟩ := hkept hval hrdy
    have hplc := hbound hpast
    rw [roundRobinQ_step]
    cases hfire : s.commandFire i with
    | true =>
      have helig : s.eligible i h = false := by simpa [hfire] using hpass
      have hle := hkeeps helig hfire
      rw [if_pos rfl]
      omega
    | false =>
      rw [if_low]
      exact hplc
  · omega

/-! ## The crossbar over whole runs -/

/-- Commands, write data and responses of a run are conserved. -/
structure Conserved (t : HartTraffic p) (past : Sync.Past (CrossbarState p) (CrossbarInput p))
    (s : CrossbarState p) (order : List (Fin p.numHarts × ℕ)) : Prop where
  inOrder : InOrder order (sent past)
  commands : forwarded past = order.map t.forwardedAs
  beats : forwardedBeats past <+: spliced t.beats order
  complete : s.wdataActiveQ = false → forwardedBeats past = spliced t.beats order
  incomplete : s.wdataActiveQ = true → ∃ done e post, order = done ++ e :: post ∧
    (t.command e.1 e.2).carriesData = true ∧ (∀ e' ∈ post, t.beats e'.1 e'.2 = []) ∧
    spliced t.beats done <+: forwardedBeats past
  handed : ∀ h, handed h past = (forwardedBeats past).filter fun b => decide (b.hartId = p.strap h)
  delivered : ∀ h, delivered h past = (taken past).filter fun r => decide (r.hartId = p.strap h)
  named : ∀ r ∈ taken past, ∃ h, r.hartId = p.strap h

section

variable (hrun : Sync.Run (lineCrossbar p) (Offers t) past s)

include hrun

theorem books_of_run : ∃ order, Books t past s order := by
  induction hrun with
  | reset hinit => exact ⟨[], Books.reset hinit⟩
  | cycle i _ hoffers ih =>
    obtain ⟨order, hbooks⟩ := ih
    exact hbooks.step hoffers

/-- Every run conserves what it carries. -/
theorem conserved_of_run : ∃ order, Conserved t past s order := by
  obtain ⟨order, hbooks⟩ := books_of_run hrun
  refine ⟨order, hbooks.inOrder, hbooks.commands, hbooks.owned.isPrefix, ?_, ?_, hbooks.handed,
    fun _ => delivered_eq _, fun _ => names_of_taken⟩
  · intro hfree
    cases hbooks.owned with
    | free _ hbeats => exact hbeats
    | held hheld _ _ => rw [hfree] at hheld; cases hheld
  · intro hheld
    cases hbooks.owned with
    | free hfree _ => rw [hfree] at hheld; cases hheld
    | held _ horder hund =>
      refine ⟨_, _, _, horder, hund.carries, hund.quiet, ?_⟩
      rw [hund.forwarded]
      exact List.prefix_append _ _

theorem passes_of_run (h : Fin p.numHarts) (hkept : KeptPlace h past) :
    passes h past + ahead s.roundRobinQ h < p.numHarts := by
  induction hrun with
  | reset hinit =>
    rw [passes, Nat.zero_add]
    exact ahead_lt _ h
  | cycle i _ _ ih => exact passes_step h ih hkept

/-- Every run conserves commands, data and responses, and a command that keeps its place
while write data holds it back is passed over once at most by every other hart. -/
theorem crossbar_conserves_fairly :
    (∃ order, Conserved t past s order) ∧
      ∀ h, KeptPlace h past → passes h past ≤ p.numHarts - 1 := by
  refine ⟨conserved_of_run hrun, fun h hkept => ?_⟩
  have hbound := passes_of_run hrun h hkept
  omega

end

/-! ## Two writers and a reader -/

theorem three_harts : (1 ≤ 3 ∧ 3 ≤ 16) ∧ 0 + 3 ≤ 16 := by decide

/-- Three harts. -/
def threeHarts : CrossbarParams where
  numHarts := 3
  hartIdBase := 0
  harts_ok := three_harts.1
  ids_ok := three_harts.2

/-- Hart 1 reads; harts 0 and 2 write single beats. -/
def twoWriters : HartTraffic threeHarts where
  command h _ :=
    { hartId := threeHarts.strap h
      txnId := 0
      sourceId := 0
      op := if h.val = 1 then icxOpRead else icxOpWrite
      lock := false
      order := 0
      kind := 0
      attr := 0
      size := 6
      addr := 0
      burstLen := 0 }
  wdata _ _ _ := LineData.zero
  wstrb _ _ _ := LineStrobe.none

/-- The harts of `who` present their commands, hart 2 its beat if `data`; the memory side
takes everything. -/
def present (who : List ℕ) (data : Bool) : CrossbarInput threeHarts where
  hartReqValidI h := who.contains h.val
  hartReqI h := twoWriters.command h 0
  memReqReadyI := true
  hartWdataValidI h := data && h.val == 2
  hartWdataI h := twoWriters.beat h 0 0
  memWdataReadyI := true
  memRespValidI := false
  memRespI :=
    { hartId := 0
      txnId := 0
      sourceId := 0
      beatIndex := 0
      last := false
      rdata := LineData.zero
      error := false
      scSuccess := false }
  hartRespReadyI _ := false

def crossbarPowerUp : CrossbarState threeHarts where
  roundRobinQ := ⟨0, three_harts.1.1⟩
  wdataActiveQ := false
  wdataHartQ := ⟨0, three_harts.1.1⟩
  wdataTxnIdQ := 0
  wdataSourceIdQ := 0
  wdataBurstLenQ := 0
  wdataBeatQ := 0

theorem crossbarPowerUp_reset : crossbarPowerUp.Reset := ⟨rfl, rfl, rfl, rfl, rfl, rfl, rfl⟩

/-- Nothing that was presented and not accepted is withdrawn. -/
def heldThere (past : Sync.Past (CrossbarState threeHarts) (CrossbarInput threeHarts))
    (i : CrossbarInput threeHarts) : Bool :=
  past.head?.all fun e => (List.finRange threeHarts.numHarts).all fun h =>
    (!(e.2.hartReqValidI h && !e.1.hartReqReadyO e.2 h) || i.hartReqValidI h) &&
      (!(e.2.hartWdataValidI h && !e.1.hartWdataReadyO e.2 h) || i.hartWdataValidI h)

section

variable {past : Sync.Past (CrossbarState threeHarts) (CrossbarInput threeHarts)}

theorem heldThere_spec {i : CrossbarInput threeHarts} (hheld : heldThere past i)
    {e : CrossbarState threeHarts × CrossbarInput threeHarts} (he : e ∈ past.head?)
    (h : Fin threeHarts.numHarts) :
    (e.2.hartReqValidI h → e.1.hartReqReadyO e.2 h = false → i.hartReqValidI h) ∧
      (e.2.hartWdataValidI h → e.1.hartWdataReadyO e.2 h = false → i.hartWdataValidI h) := by
  rw [heldThere, Option.mem_def.mp he, Option.all_some, List.all_eq_true] at hheld
  have hhart := hheld h (List.mem_finRange h)
  rw [and_eq_true] at hhart
  constructor
  · intro hval hrdy
    simpa [hval, hrdy] using hhart.1
  · intro hval hrdy
    simpa [hval, hrdy] using hhart.2

/-- Single beats that are all alike are handed over in any order. -/
theorem handed_present (hpast : ∀ e ∈ past, ∃ who data, e.2 = present who data)
    (h : Fin threeHarts.numHarts) :
    ∃ m, handed h past = List.replicate m (twoWriters.beat h 0 0) := by
  induction past with
  | nil => exact ⟨0, rfl⟩
  | cons e past ih =>
    obtain ⟨m, hm⟩ := ih fun e' he' => hpast e' (List.mem_cons_of_mem _ he')
    obtain ⟨who, data, hinput⟩ := hpast e List.mem_cons_self
    obtain ⟨s, i⟩ := e
    obtain rfl : i = present who data := hinput
    rw [handed, log_cons]
    rw [handed] at hm
    rw [hm]
    split_ifs
    · exact ⟨m + 1, (List.replicate_succ' ..).symm⟩
    · exact ⟨m, append_nil _⟩

theorem present_offers {s : CrossbarState threeHarts} {who : List ℕ} {data : Bool}
    (hpast : ∀ e ∈ past, ∃ who data, e.2 = present who data)
    (hheld : heldThere past (present who data)) : Offers twoWriters past s (present who data) where
  command _ _ := rfl
  beat h hval := by
    obtain ⟨m, hm⟩ := handed_present hpast h
    have htwo : h.val = 2 := by
      simpa [present] using (Bool.and_eq_true_iff.mp hval).2
    have hblock : ∀ k, twoWriters.beats h k = [twoWriters.beat h 0 0] := by
      intro k
      have hop : (twoWriters.command h k).carriesData := by
        rw [LineCommand.carriesData, twoWriters]
        simp only [htwo]
        rfl
      rw [HartTraffic.beats_of_carries hop]
      rfl
    refine ⟨m + 1, ?_⟩
    have hblocks : ∀ n, blocks (twoWriters.beats h) n =
        List.replicate n (twoWriters.beat h 0 0) := by
      intro n
      induction n with
      | zero => rfl
      | succ n ih => rw [blocks_succ, ih, hblock, List.replicate_succ']
    rw [hm, hblocks, List.replicate_succ']
    exact List.prefix_rfl
  held _ he h := (heldThere_spec hheld he h).1
  heldBeat _ he h := (heldThere_spec hheld he h).2

end

/-- The reader goes first.  Then hart 2 writes, and while its data goes out the reader reads
again, which takes the pointer past hart 0 to hart 2. -/
def starved : List (CrossbarInput threeHarts) :=
  [present [1] false, present [0, 2] false, present [0, 1] true, present [0, 2] false,
    present [0, 1] true, present [0, 2] false]

theorem exec_offers {inputs : List (CrossbarInput threeHarts)}
    {past : Sync.Past (CrossbarState threeHarts) (CrossbarInput threeHarts)}
    {s : CrossbarState threeHarts} (hrun : Sync.Run (lineCrossbar threeHarts) (Offers twoWriters)
      past s)
    (hpast : ∀ e ∈ past, ∃ who data, e.2 = present who data)
    (hinputs : ∀ i ∈ inputs, ∃ who data, i = present who data)
    (hok : execOkPast (lineCrossbar threeHarts) (fun past _ i => heldThere past i) past s inputs) :
    Sync.Run (lineCrossbar threeHarts) (Offers twoWriters)
      (exec (lineCrossbar threeHarts) past s inputs).1
      (exec (lineCrossbar threeHarts) past s inputs).2 := by
  induction inputs generalizing past s with
  | nil => exact hrun
  | cons i inputs ih =>
    rw [execOkPast, and_eq_true] at hok
    obtain ⟨who, data, rfl⟩ := hinputs i List.mem_cons_self
    refine ih (.cycle _ hrun (present_offers hpast hok.1)) ?_ ?_ hok.2
    · intro e he
      rcases mem_cons.mp he with rfl | he
      · exact ⟨who, data, rfl⟩
      · exact hpast e he
    · exact fun j hj => hinputs j (List.mem_cons_of_mem _ hj)

theorem mem_starved {i : CrossbarInput threeHarts} (hi : i ∈ starved) :
    ∃ who data, i = present who data := by
  simp only [starved, mem_cons, not_mem_nil, or_false] at hi
  rcases hi with rfl | rfl | rfl | rfl | rfl | rfl <;> exact ⟨_, _, rfl⟩

theorem starved_run (n : ℕ) (hok : execOkPast (lineCrossbar threeHarts)
      (fun past _ i => heldThere past i) [] crossbarPowerUp (starved.take n)) :
    Sync.Run (lineCrossbar threeHarts) (Offers twoWriters)
      (exec (lineCrossbar threeHarts) [] crossbarPowerUp (starved.take n)).1
      (exec (lineCrossbar threeHarts) [] crossbarPowerUp (starved.take n)).2 :=
  exec_offers (.reset crossbarPowerUp_reset) (fun _ he => absurd he not_mem_nil)
    (fun _ hi => mem_starved (List.mem_of_mem_take hi)) hok

/-- After the first two grants hart 0 has been passed over once, and was held back by
nothing. -/
theorem crossbar_conserves_fairly_two :
    (∃ order, Conserved twoWriters
        (exec (lineCrossbar threeHarts) [] crossbarPowerUp (starved.take 2)).1
        (exec (lineCrossbar threeHarts) [] crossbarPowerUp (starved.take 2)).2 order) ∧
      passes crossbarPowerUp.roundRobinQ
        (exec (lineCrossbar threeHarts) [] crossbarPowerUp (starved.take 2)).1 ≤ 2 := by
  have h := crossbar_conserves_fairly (starved_run 2 (by decide +kernel))
  refine ⟨h.1, h.2 _ fun _ _ => ⟨fun hheld => absurd hheld (by decide +kernel), ?_⟩⟩
  exact fun hvalid => absurd hvalid (by decide +kernel)

/-- The write of hart 0 is passed over three times although it could have gone each time. -/
theorem not_crossbar_fair : ¬ ∀ (p : CrossbarParams) (t : HartTraffic p)
    (past : Sync.Past (CrossbarState p) (CrossbarInput p)) (s : CrossbarState p),
    Sync.Run (lineCrossbar p) (Offers t) past s →
      (∃ order, Conserved t past s order) ∧ ∀ h, passes h past ≤ p.numHarts - 1 := by
  intro hall
  have hpasses := (hall _ _ _ _ (starved_run 6 (by decide +kernel))).2
    crossbarPowerUp.roundRobinQ
  revert hpasses
  decide +kernel

end CrossbarState

end OpenRV64
