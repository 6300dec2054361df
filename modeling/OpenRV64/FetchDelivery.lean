/-
The one-wide fetch unit hands out the instruction stream: the unread lines, the line that is
asked for and the address in the core stay one behind the other.
-/
import OpenRV64.FetchStream
import OpenRV64.Napot

namespace OpenRV64

open FetchFront Sync
open BitVec (ofNat extractLsb'_toNat ofNat_add toNat_append eq_of_toNat_eq toNat_add toNat_ofNat
  isLt)
open Bool (and_eq_true not_eq_true' or_eq_false_iff toNat_false or_eq_true false_xor)
open Option (some)

open ScalarState (pcAfter)

/-- The unit holds `n` unread lines from `next` on, then the line that is asked for, then that
of `pc`.  `going` says that the next line to be read has its place already. -/
structure FetchState.Runs (s : FetchState) (next pc : BitVec 64) (n : Nat) (going : Prop) :
    Prop where
  queued : Queued s.buffer s.readBankQ next n
  room : n + s.reqActiveQ.toNat ≤ 8
  pc : pc = pcAfter^[n + s.reqActiveQ.toNat] next
  begun : 0 < n + s.reqActiveQ.toNat → going
  slot : going → s.readSlotQ = next.getLsbD 2
  parity : going → s.readBankQ.toNat % 2 = (lineOf next).toNat % 2
  tail : going → s.reqActiveQ = false → s.writeBankQ = s.readBankQ + BitVec.ofNat 3 n
  request : s.reqActiveQ = true → s.reqBankQ = s.readBankQ + BitVec.ofNat 3 n ∧
    s.reqPcQ = pcAfter^[n] next ∧ lineOf s.reqAddrQ = lineOf s.reqPcQ

/-- A buffer holds the line that another held, if it still goes for resident. -/
structure FetchBuffer.Keeps (b' b : FetchBuffer) : Prop where
  slot : b'.slot = b.slot
  lineTag : b'.lineTag = b.lineTag
  fault : b'.fault = b.fault
  pageFault : b'.pageFault = b.pageFault
  resident : b'.resident = true → b.resident = true

/-- A buffer holds what memory answered. -/
structure FetchBuffer.Holds (b : FetchBuffer) (a : FetchAnswer) : Prop where
  slot : ∀ upper, b.slot upper = a.word upper
  fault : b.fault = a.fault
  pageFault : b.pageFault = a.pageFault

theorem FetchBuffer.Keeps.holds {b' b : FetchBuffer} {a : FetchAnswer} (h : b'.Keeps b)
    (hb : b.Holds a) : b'.Holds a where
  slot upper := (congrFun h.slot upper).trans (hb.slot upper)
  fault := h.fault.trans hb.fault
  pageFault := h.pageFault.trans hb.pageFault

namespace FetchState

variable {s : FetchState} {j : FetchInput} {next pc : BitVec 64} {n : Nat} {going : Prop}

/-! ### Lines and banks -/

theorem append_bank_eq {line : BitVec 61} {bank : BitVec 3}
    (hparity : bank.toNat % 2 = line.toNat % 2) :
    line.extractLsb' 1 60 ++ bank.extractLsb' 0 1 = line := by
  have hlt := line.isLt
  apply eq_of_toNat_eq
  rw [toNat_append, extractLsb'_toNat, extractLsb'_toNat,
    Nat.shiftRight_eq_div_pow, Nat.shiftRight_eq_div_pow, Nat.shiftLeft_eq,
    ← Nat.shiftLeft_eq, ← Nat.shiftLeft_add_eq_or_of_lt (by omega), Nat.shiftLeft_eq]
  omega

theorem extractLsb'_lineOf (pc : BitVec 64) :
    (lineOf pc).extractLsb' 1 60 = pc.extractLsb' 4 60 := by
  apply eq_of_toNat_eq
  have hlt := pc.isLt
  rw [extractLsb'_toNat, extractLsb'_toNat, toNat_lineOf,
    Nat.shiftRight_eq_div_pow, Nat.shiftRight_eq_div_pow]
  omega

theorem parity_add {first : BitVec 3} {line : BitVec 61}
    (h : first.toNat % 2 = line.toNat % 2) (n : Nat) :
    (first + ofNat 3 n).toNat % 2 = (line + ofNat 61 n).toNat % 2 := by
  rw [toNat_add, toNat_add, toNat_ofNat, toNat_ofNat]
  omega

/-- The banks in which a line is looked for are those of its set. -/
theorem parity_wayBank (pc : BitVec 64) (way : BitVec 2) :
    (wayBank pc way).toNat % 2 = (lineOf pc).toNat % 2 := by
  have hlt := pc.isLt
  rw [toNat_lineOf, wayBank, toNat_append, extractLsb'_toNat,
    Nat.shiftRight_eq_div_pow, ← Nat.shiftLeft_add_eq_or_of_lt (by omega), Nat.shiftLeft_eq]
  omega

/-- A hit is a resident bank with the line that is looked for. -/
theorem lookup_spec {bank : BitVec 3} (h : s.lookup pc = some bank) :
    (s.buffer bank).resident ∧ lineAt s.buffer bank = lineOf pc ∧
      bank.toNat % 2 = (lineOf pc).toNat % 2 := by
  have hway : ∃ way, bank = wayBank pc way ∧ s.wayHits pc way := by
    rw [lookup] at h
    split at h
    · exact ⟨0, (some.inj h).symm, by assumption⟩
    split at h
    · exact ⟨1, (some.inj h).symm, by assumption⟩
    split at h
    · exact ⟨2, (some.inj h).symm, by assumption⟩
    · split at h
      · exact ⟨3, (some.inj h).symm, by assumption⟩
      · cases h
  obtain ⟨way, rfl, hhits⟩ := hway
  rw [wayHits, and_eq_true, beq_iff_eq] at hhits
  have hparity := parity_wayBank pc way
  refine ⟨hhits.1, ?_, hparity⟩
  rw [lineAt, hhits.2, ← extractLsb'_lineOf]
  exact append_bank_eq hparity

theorem lookupBank_spec (h : s.lookupHit j) :
    (s.buffer (s.lookupBank j)).resident ∧ lineAt s.buffer (s.lookupBank j) = lineOf (lookupPc j) ∧
      (s.lookupBank j).toNat % 2 = (lineOf (lookupPc j)).toNat % 2 := by
  obtain ⟨bank, hbank⟩ := Option.isSome_iff_exists.mp h
  have heq : s.lookupBank j = bank := by rw [lookupBank, hbank, Option.getD_some]
  rw [heq]
  exact lookup_spec hbank

theorem queueEmpty_iff : s.queueEmpty ↔ ∀ bank, (s.buffer bank).count = 0 := by
  have hunread : ∀ bank, s.unread bank = false ↔ (s.buffer bank).count = 0 := fun bank => by
    rw [unread, bne_eq_false_iff_eq]
  constructor
  · intro h
    simp only [queueEmpty, not_eq_true', or_eq_false_iff] at h
    intro bank
    rw [← hunread]
    have hcases : ∀ b : BitVec 3, b = 0 ∨ b = 1 ∨ b = 2 ∨ b = 3 ∨ b = 4 ∨ b = 5 ∨ b = 6 ∨ b = 7 :=
      by decide
    rcases hcases bank with rfl | rfl | rfl | rfl | rfl | rfl | rfl | rfl <;> tauto
  · intro h
    simp [queueEmpty, (hunread _).mpr (h _)]

theorem Runs.queueEmpty_iff (h : s.Runs next pc n going) : s.queueEmpty ↔ n = 0 := by
  rw [FetchState.queueEmpty_iff]
  constructor
  · intro hz
    by_contra hn
    exact h.queued.first_unread.mpr (Nat.pos_of_ne_zero hn) (hz _)
  · rintro rfl bank
    rw [h.queued.count, if_neg (Nat.not_lt_zero _)]

/-! ### Reading and filling -/

/-- The cycle without a new address. -/
def idle (j : FetchInput) : FetchInput := { j with pcValidI := false }

/-- The lines once decode and memory have done their part of the cycle. -/
def settled (s : FetchState) (j : FetchInput) (bank : BitVec 3) : FetchBuffer :=
  if s.reqComplete j && bank == s.reqBankQ then s.answeredLine j
  else if s.bufferedDecodeFire j && bank == s.readBankQ then
    { s.buffer bank with count := (s.buffer bank).count - 1 }
  else s.buffer bank

theorem streamed_idle_buffer : (s.streamed (idle j)).buffer = s.settled j := by
  funext bank
  rw [streamed]
  have hstarts : s.requestStarts (idle j) = false := rfl
  have hhit : s.pcAcceptHit (idle j) = false := rfl
  have hcomp : s.reqComplete (idle j) = s.reqComplete j := rfl
  have hfire : s.bufferedDecodeFire (idle j) = s.bufferedDecodeFire j := rfl
  rfl

theorem Runs.unread_readBank (h : s.Runs next pc n going) : s.unread s.readBankQ ↔ 0 < n := by
  rw [unread, bne_iff_ne]
  exact h.queued.first_unread

theorem Runs.pos_of_fire (h : s.Runs next pc n going) (hfire : s.bufferedDecodeFire j) : 0 < n := by
  rw [bufferedDecodeFire, bufferedDecodeValid, and_eq_true, and_eq_true] at hfire
  exact h.unread_readBank.mp hfire.1.2

/-- The first bank is read out with the upper word of its line. -/
theorem Runs.readBankWillEmpty (h : s.Runs next pc n going) :
    s.readBankWillEmpty j = (s.bufferedDecodeFire j && next.getLsbD 2) := by
  rw [FetchState.readBankWillEmpty]
  cases hfire : s.bufferedDecodeFire j with
  | false => rfl
  | true =>
    rw [h.queued.count, if_pos (by rw [place_self]; exact h.pos_of_fire hfire), if_pos rfl,
      unreadFrom]
    cases next.getLsbD 2 <;> rfl

/-- What is next once decode has taken a word. -/
def nextAfter (s : FetchState) (j : FetchInput) (next : BitVec 64) : BitVec 64 :=
  if s.bufferedDecodeFire j then next + 4 else next

/-- The lines that are left once decode has taken a word. -/
def leftAfter (s : FetchState) (j : FetchInput) (n : Nat) : Nat :=
  if s.readBankWillEmpty j then n - 1 else n

def firstAfter (s : FetchState) (j : FetchInput) : BitVec 3 :=
  if s.readBankWillEmpty j then s.readBankQ + 1 else s.readBankQ

theorem Runs.leftAfter_le (_ : s.Runs next pc n going) : s.leftAfter j n ≤ n := by
  rw [leftAfter]
  split <;> omega

/-- The bank behind the unread ones stays where it is. -/
theorem Runs.firstAfter_add (h : s.Runs next pc n going) :
    s.firstAfter j + ofNat 3 (s.leftAfter j n) = s.readBankQ + ofNat 3 n := by
  rw [firstAfter, leftAfter]
  split
  · rename_i hemp
    rw [h.readBankWillEmpty, and_eq_true] at hemp
    obtain ⟨k, rfl⟩ := Nat.exists_eq_succ_of_ne_zero (Nat.ne_of_gt (h.pos_of_fire hemp.1))
    rw [Nat.succ_sub_one, BitVec.add_assoc, BitVec.add_comm 1]
    exact congrArg (s.readBankQ + ·) (ofNat_add k 1).symm
  · rfl

/-- The lines behind the unread ones stay the same. -/
theorem Runs.iterate_leftAfter (h : s.Runs next pc n going) (k : Nat) :
    pcAfter^[s.leftAfter j n + k] (s.nextAfter j next) = pcAfter^[n + k] next := by
  rw [leftAfter, nextAfter, h.readBankWillEmpty]
  cases hfire : s.bufferedDecodeFire j with
  | false => rfl
  | true =>
    have hpos := h.pos_of_fire hfire
    rw [Bool.true_and, if_pos rfl, ← iterate_add (Nat.add_pos_left hpos k)]
    congr 1
    cases next.getLsbD 2 with
    | true =>
      rw [if_pos rfl, if_pos rfl, Nat.sub_add_comm hpos]
    | false => rfl

theorem Runs.read (h : s.Runs next pc n going) :
    Queued (fun bank => if s.bufferedDecodeFire j && bank == s.readBankQ then
        { s.buffer bank with count := (s.buffer bank).count - 1 } else s.buffer bank)
      (s.firstAfter j) (s.nextAfter j next) (s.leftAfter j n) := by
  rw [firstAfter, nextAfter, leftAfter, h.readBankWillEmpty]
  cases hfire : s.bufferedDecodeFire j with
  | false => exact h.queued
  | true =>
    exact h.queued.pop (h.pos_of_fire hfire)

theorem active_of_complete (h : s.reqComplete j) : s.reqActiveQ := by
  rw [reqComplete, and_eq_true] at h
  exact h.1

/-- What is unread and what is asked for, after decode and memory have done their part. -/
theorem settled_count : (s.leftAfter j n + (s.reqComplete j).toNat) +
    (s.reqActiveQ && !s.reqComplete j).toNat = s.leftAfter j n + s.reqActiveQ.toNat := by
  cases hcomp : s.reqComplete j with
  | true => rw [active_of_complete hcomp]; rfl
  | false => rw [Bool.not_false, Bool.and_true]; rfl

/-- The line that memory answers with comes behind the unread ones. -/
theorem Runs.settled_queued (h : s.Runs next pc n going) :
    Queued (s.settled j) (s.firstAfter j) (s.nextAfter j next)
      (s.leftAfter j n + (s.reqComplete j).toNat) := by
  cases hcomp : s.reqComplete j with
  | false =>
    have heq : s.settled j = fun bank =>
        if s.bufferedDecodeFire j && bank == s.readBankQ then
          { s.buffer bank with count := (s.buffer bank).count - 1 } else s.buffer bank := by
      funext bank
      rw [settled, hcomp, Bool.false_and, if_low]
    rw [heq]
    exact h.read
  | true =>
    have hact := active_of_complete hcomp
    obtain ⟨hbank, hpc, haddr⟩ := h.request hact
    have hroom := h.room
    have hleft := h.leftAfter_le (j := j)
    rw [hact] at hroom
    have hlt : s.leftAfter j n < 8 := Nat.lt_of_le_of_lt hleft hroom
    have hself : s.settled j s.reqBankQ = s.answeredLine j := by
      rw [settled, hcomp, Bool.true_and, if_pos (beq_self_eq_true s.reqBankQ)]
    have hiterate : pcAfter^[s.leftAfter j n] (s.nextAfter j next) = s.reqPcQ :=
      (h.iterate_leftAfter 0).trans hpc.symm
    have hparity : s.reqBankQ.toNat % 2 = (lineOf s.reqPcQ).toNat % 2 := by
      rw [hbank, hpc, lineOf_iterate]
      exact parity_add (h.parity (h.begun (by rw [hact]; exact Nat.succ_pos n))) n
    refine h.read.push hlt (fun bank hne => ?_) ?_ ?_ ?_
    · rw [h.firstAfter_add, ← hbank] at hne
      rw [settled, hcomp, Bool.true_and, if_neg (by rw [beq_iff_eq]; exact hne)]
    · rw [h.firstAfter_add, ← hbank, hself, hiterate]
      rfl
    · rw [h.firstAfter_add, ← hbank, lineAt, hself, hiterate]
      have htag : (s.answeredLine j).lineTag = (lineOf s.reqPcQ).extractLsb' 1 60 := by
        rw [← haddr, extractLsb'_lineOf]
        rfl
      rw [htag]
      exact append_bank_eq hparity
    · rw [h.firstAfter_add, ← hbank, hself]
      rfl

/-- Decode and memory do their part: the unit goes on as it should without a new address. -/
theorem Runs.settles (h : s.Runs next pc n going) :
    (s.streamed (idle j)).Runs (s.nextAfter j next) pc
      (s.leftAfter j n + (s.reqComplete j).toNat) going := by
  have hact : (s.streamed (idle j)).reqActiveQ = (s.reqActiveQ && !s.reqComplete j) := rfl
  have hfst : (s.streamed (idle j)).readBankQ = s.firstAfter j := rfl
  have hslot : (s.streamed (idle j)).readSlotQ =
      if s.bufferedDecodeFire j then !s.readBankWillEmpty j else s.readSlotQ := rfl
  have hwr : (s.streamed (idle j)).writeBankQ =
      if s.reqComplete j then s.reqSuccessorBank else s.writeBankQ := rfl
  have hleft := h.leftAfter_le (j := j)
  have hroom := h.room
  refine ⟨?_, ?_, ?_, fun hpos => ?_, fun hgoing => ?_, fun hgoing => ?_, fun hgoing hidle => ?_,
    fun hwaits => ?_⟩
  · rw [streamed_idle_buffer, hfst]
    exact h.settled_queued
  · rw [hact, settled_count]
    omega
  · rw [hact, settled_count, h.iterate_leftAfter]
    exact h.pc
  · rw [hact, settled_count] at hpos
    exact h.begun (by omega)
  · rw [hslot, h.readBankWillEmpty, nextAfter]
    cases hfire : s.bufferedDecodeFire j with
    | false => exact h.slot hgoing
    | true => rw [if_pos rfl, if_pos rfl, Bool.true_and, getLsbD_two_add]
  · rw [hfst, firstAfter, nextAfter, h.readBankWillEmpty]
    cases hfire : s.bufferedDecodeFire j with
    | false => exact h.parity hgoing
    | true =>
      rw [Bool.true_and, if_pos rfl, lineOf_add]
      cases next.getLsbD 2 with
      | false =>
        exact (h.parity hgoing).trans
          (congrArg (fun line : BitVec 61 => line.toNat % 2) (BitVec.add_zero _).symm)
      | true => exact parity_add (h.parity hgoing) 1
  · rw [hact] at hidle
    rw [hwr, hfst]
    cases hcomp : s.reqComplete j with
    | false =>
      rw [hcomp, Bool.not_false, Bool.and_true] at hidle
      rw [if_low, h.tail hgoing hidle]
      exact h.firstAfter_add.symm
    | true =>
      have hbank := (h.request (active_of_complete hcomp)).1
      rw [if_pos rfl, reqSuccessorBank, hbank, ← h.firstAfter_add (j := j), BitVec.add_assoc]
      exact congrArg (s.firstAfter j + ·) (ofNat_add (s.leftAfter j n) 1).symm
  · rw [hact, and_eq_true, not_eq_true'] at hwaits
    obtain ⟨hbank, hpc, haddr⟩ := h.request hwaits.1
    rw [hfst, hwaits.2, toNat_false, Nat.add_zero, h.firstAfter_add]
    exact ⟨hbank, hpc.trans (h.iterate_leftAfter 0).symm, haddr⟩

/-! ### A new address -/

theorem streamed_of_not_accept (h : s.pcAccept j = false) : s.streamed j = s.streamed (idle j) := by
  have hhit : s.pcAcceptHit j = false := by rw [pcAcceptHit, h, Bool.false_and]
  have hstarts : s.requestStarts j = false := by
    rw [requestStarts, pcAcceptMiss, h, Bool.false_and, Bool.false_and]
  have hat : s.startsAtRequest j = false := by
    rw [startsAtRequest, hstarts, Bool.false_and, Bool.false_and]
  have hbuffer : s.bufferNext j = s.settled j := by
    funext bank
    simp only [bufferNext, settled, hstarts, hhit, Bool.false_and, if_low]
  rw [streamed, hbuffer, ← streamed_idle_buffer, startsAtHit, hhit, hat, hstarts]
  rfl

/-- An address is accepted when there is room behind the lines, and memory is free. -/
theorem canStart_of_accept (h : s.pcAccept j) (hstart : s.lookupStartsStream j = false) :
    s.missBankEmpty j ∧ (s.reqActiveQ = false ∨ s.reqComplete j) := by
  rw [pcAccept, pcReadyO, lookupReusable, hstart, Bool.false_or, lookupHitsTail,
    requestCanStart] at h
  simp only [and_eq_true, or_eq_true, not_eq_true'] at h
  rcases h.2.2 with h' | h'
  · exact ⟨h'.1.2, h'.2⟩
  · exact h'

theorem settled_of_free (h : s.reqActiveQ = false ∨ s.reqComplete j) :
    (s.reqActiveQ && !s.reqComplete j) = false := by
  rcases h with h | h
  · rw [h, Bool.false_and]
  · rw [h, Bool.not_true, Bool.and_false]

section

variable (h : s.Runs next pc n going)

include h

/-- The bank for a new line is the one behind the lines. -/
theorem Runs.nextReqBank (hgoing : going) (hfree : s.reqActiveQ = false ∨ s.reqComplete j) :
    s.nextReqBank = s.firstAfter j + ofNat 3 (s.leftAfter j n + (s.reqComplete j).toNat) := by
  rw [FetchState.nextReqBank]
  cases hcomp : s.reqComplete j with
  | true =>
    have hact := active_of_complete hcomp
    rw [hact, if_pos rfl, reqSuccessorBank, (h.request hact).1,
      ← h.firstAfter_add (j := j), BitVec.add_assoc]
    exact congrArg (s.firstAfter j + ·) (ofNat_add (s.leftAfter j n) 1).symm
  | false =>
    have hact : s.reqActiveQ = false := by
      rcases hfree with hfree | hfree
      · exact hfree
      · rw [hcomp] at hfree
        cases hfree
    rw [hact, if_low, h.tail hgoing hact]
    exact h.firstAfter_add.symm

theorem Runs.nextReqBank_eq (hgoing : going) :
    s.nextReqBank = s.readBankQ + ofNat 3 (n + s.reqActiveQ.toNat) := by
  rw [FetchState.nextReqBank]
  cases hact : s.reqActiveQ with
  | true =>
    rw [if_pos rfl, reqSuccessorBank, (h.request hact).1, BitVec.add_assoc]
    exact congrArg (s.readBankQ + ·) (ofNat_add n 1).symm
  | false => exact h.tail hgoing hact

theorem Runs.streamEmpty_iff : s.streamEmpty ↔ n + s.reqActiveQ.toNat = 0 := by
  rw [streamEmpty, and_eq_true, h.queueEmpty_iff, not_eq_true']
  cases s.reqActiveQ <;> simp

theorem Runs.has_room (hstream : s.streamEmpty = false)
    (hmiss : s.missBankEmpty j) : s.leftAfter j n + (s.reqComplete j).toNat < 8 := by
  have hpos : 0 < n + s.reqActiveQ.toNat :=
    Nat.pos_of_ne_zero fun hz => by
      rw [h.streamEmpty_iff.mpr hz] at hstream
      cases hstream
  have hbank : s.missBank j = s.readBankQ + ofNat 3 (n + s.reqActiveQ.toNat) := by
    rw [missBank, hstream, if_low]
    exact h.nextReqBank_eq (h.begun hpos)
  have hleft := h.leftAfter_le (j := j)
  have hroom := h.room
  have hcomp : (s.reqComplete j).toNat ≤ s.reqActiveQ.toNat := by
    cases hcomp : s.reqComplete j with
    | false => exact Nat.zero_le _
    | true => rw [active_of_complete hcomp]
  rcases Nat.lt_or_eq_of_le hroom with hlt | heq
  · omega
  -- every bank is in use, so the first one is read out in this cycle
  have hact := s.reqActiveQ.toNat_le
  have hfull : s.missBank j = s.readBankQ := by
    rw [hbank, heq]
    exact BitVec.add_zero _
  have hunread : s.unread (s.missBank j) := by
    rw [hfull]
    exact h.unread_readBank.mpr (by omega)
  rw [missBankEmpty, hunread, Bool.not_true, Bool.false_or, and_eq_true] at hmiss
  rw [leftAfter, if_pos hmiss.1]
  omega

end

theorem iterate_succ_of_eq {pc next : BitVec 64} {n : Nat} (h : pc = pcAfter^[n] next) :
    pcAfter pc = pcAfter^[n + 1] next := by
  rw [Function.iterate_succ_apply', h]

theorem Runs.missBank_parity (h : s.Runs next pc n going) (hpc : j.pcI = pc)
    (hstream : s.streamEmpty) : (s.missBank j).toNat % 2 = (lineOf next).toNat % 2 := by
  have hlt := j.pcI.isLt
  have hnxt : next = j.pcI := by
    rw [hpc, h.pc, h.streamEmpty_iff.mp hstream]
    rfl
  rw [missBank, if_pos hstream, hnxt, toNat_lineOf, toNat_append,
    ← Nat.shiftLeft_add_eq_or_of_lt (isLt _), Nat.shiftLeft_eq,
    extractLsb'_toNat 3 1, Nat.shiftRight_eq_div_pow]
  omega

section Miss

variable (hmiss : s.pcAcceptMiss j)

include hmiss

theorem canStart_of_miss : s.missBankEmpty j ∧ (s.reqActiveQ = false ∨ s.reqComplete j) := by
  rw [pcAcceptMiss, and_eq_true, not_eq_true', lookupReusable, or_eq_false_iff] at hmiss
  exact canStart_of_accept hmiss.1 hmiss.2.1

theorem hit_of_miss : s.pcAcceptHit j = false := by
  rw [pcAcceptMiss, and_eq_true, not_eq_true'] at hmiss
  rw [pcAcceptHit, hmiss.2, Bool.and_false]

theorem requestStarts_of_miss : s.requestStarts j := by
  rw [requestStarts, hmiss, Bool.true_and, or_eq_true, not_eq_true']
  exact (canStart_of_miss hmiss).2.symm

theorem buffer_of_miss (bank : BitVec 3) : (s.streamed j).buffer bank =
    if bank = s.requestBank j then { s.settled j bank with resident := false }
    else s.settled j bank := by
  change s.bufferNext j bank = _
  simp only [bufferNext, settled, requestStarts_of_miss hmiss, hit_of_miss hmiss,
    Bool.false_and, Bool.true_and, if_low, beq_iff_eq]

theorem reqActive_of_miss : (s.streamed j).reqActiveQ := by
  change (s.requestStarts j || _)
  rw [requestStarts_of_miss hmiss, Bool.true_or]

theorem reqBank_of_miss : (s.streamed j).reqBankQ = s.requestBank j :=
  if_pos (requestStarts_of_miss hmiss)

theorem reqPc_of_miss : (s.streamed j).reqPcQ = j.pcI := if_pos (requestStarts_of_miss hmiss)

theorem reqAddr_of_miss : lineOf (s.streamed j).reqAddrQ = lineOf j.pcI := by
  change lineOf (if s.requestStarts j then _ else _) = _
  rw [if_pos (requestStarts_of_miss hmiss)]
  apply BitVec.eq_of_getLsbD_eq
  intro k hk
  simp only [lineOf, BitVec.getLsbD_extractLsb', BitVec.getLsbD_append]
  simp [hk]

theorem count_of_miss (bank : BitVec 3) :
    ((s.streamed j).buffer bank).count = (s.settled j bank).count := by
  rw [buffer_of_miss hmiss]
  split <;> rfl

theorem readBank_of_miss : (s.streamed j).readBankQ =
    if s.startsAtRequest j then s.missBank j else s.firstAfter j := by
  change (if s.startsAtHit j then _ else _) = _
  rw [startsAtHit, hit_of_miss hmiss, Bool.false_and, if_low]
  rfl

theorem readSlot_of_miss : (s.streamed j).readSlotQ =
    if s.startsAtRequest j then j.pcI.getLsbD 2 else (s.streamed (idle j)).readSlotQ := by
  change (if s.startsAtHit j then _ else _) = _
  rw [startsAtHit, hit_of_miss hmiss, Bool.false_and, if_low]
  rfl

section

variable (h : s.Runs next pc n going) (hpc : j.pcI = pc)

include h hpc

theorem Runs.misses_first (hstream : s.streamEmpty) :
    (s.streamed j).Runs (s.nextAfter j next) (pcAfter pc) 0 True := by
  have hfst := readBank_of_miss hmiss
  have hslot := readSlot_of_miss hmiss
  have hact := reqActive_of_miss hmiss
  obtain ⟨hn, hidle⟩ : n = 0 ∧ s.reqActiveQ = false := by
    have hz := h.streamEmpty_iff.mp hstream
    refine ⟨by omega, Bool.eq_false_of_not_eq_true fun hcon => ?_⟩
    rw [hcon, Bool.toNat_true] at hz
    omega
  have hcomp : s.reqComplete j = false := by rw [reqComplete, hidle, Bool.false_and]
  have hfire : s.bufferedDecodeFire j = false :=
    Bool.eq_false_of_not_eq_true fun hfire => by
      have hpos := h.pos_of_fire hfire
      omega
  have hat : s.startsAtRequest j := by
    rw [startsAtRequest, requestStarts_of_miss hmiss, hcomp, h.queueEmpty_iff.mpr hn]
    rfl
  have hnxt : next = pc := by
    rw [h.pc, hn, hidle]
    rfl
  have hbank : s.requestBank j = s.missBank j := by
    rw [requestBank, hcomp, if_low]
  have hnextAfter : s.nextAfter j next = pc := by
    rw [nextAfter, hfire, if_low, hnxt]
  rw [hat, if_pos rfl] at hfst hslot
  refine ⟨?_, ?_, ?_, fun _ => trivial, fun _ => ?_, fun _ => ?_, fun _ hidle' => ?_, fun _ => ?_⟩
  · refine queued_empty (fun bank => ?_) _ _
    rw [count_of_miss hmiss, settled, hcomp, hfire, Bool.false_and, Bool.false_and, if_low, if_low]
    exact FetchState.queueEmpty_iff.mp (h.queueEmpty_iff.mpr hn) bank
  · rw [hact]
    decide
  · rw [hact, hnextAfter]
    rfl
  · rw [hslot, hnextAfter, hpc]
  · rw [hfst, hnextAfter, ← hnxt]
    exact h.missBank_parity hpc hstream
  · rw [hact] at hidle'
    cases hidle'
  · rw [reqBank_of_miss hmiss, hbank, hfst, reqPc_of_miss hmiss, hpc, hnextAfter,
      reqAddr_of_miss hmiss, hpc]
    exact ⟨(BitVec.add_zero _).symm, rfl, rfl⟩

theorem Runs.misses_behind (hstream : s.streamEmpty = false) :
    (s.streamed j).Runs (s.nextAfter j next) (pcAfter pc)
      (s.leftAfter j n + (s.reqComplete j).toNat) True := by
  obtain ⟨hroom, hfree⟩ := canStart_of_miss hmiss
  have hfst := readBank_of_miss hmiss
  have hslot := readSlot_of_miss hmiss
  have hact := reqActive_of_miss hmiss
  have hsettles := h.settles (j := j)
  have hgoing : going := h.begun (Nat.pos_of_ne_zero fun hz => by
    rw [h.streamEmpty_iff.mpr hz] at hstream
    cases hstream)
  have hlt := h.has_room hstream hroom
  have hat : s.startsAtRequest j = false := by
    rw [startsAtRequest]
    rw [streamEmpty] at hstream
    cases hemp : s.queueEmpty with
    | false => rw [Bool.and_false]
    | true =>
      rw [hemp, Bool.true_and, Bool.not_eq_false'] at hstream
      rcases hfree with hfree | hfree
      · rw [hfree] at hstream
        cases hstream
      · rw [hfree, Bool.not_true, Bool.and_false, Bool.false_and]
  have hbank : s.requestBank j =
      s.firstAfter j + ofNat 3 (s.leftAfter j n + (s.reqComplete j).toNat) := by
    rw [← h.nextReqBank hgoing hfree, requestBank, missBank, hstream, if_low]
    cases hcomp : s.reqComplete j with
    | false => rfl
    | true => rw [if_pos rfl, FetchState.nextReqBank, active_of_complete hcomp, if_pos rfl]
  have hidle : (s.streamed (idle j)).reqActiveQ = false := settled_of_free hfree
  have hpc' := hsettles.pc
  rw [hidle, toNat_false, Nat.add_zero] at hpc'
  rw [hat, if_low] at hfst hslot
  refine ⟨?_, ?_, ?_, fun _ => trivial, fun _ => ?_, fun _ => ?_, fun _ hidle' => ?_, fun _ => ?_⟩
  · rw [hfst]
    refine h.settled_queued.keep (count_of_miss hmiss) (fun bank => ?_) (fun bank hplc => ?_)
    · rw [buffer_of_miss hmiss]
      split <;> rfl
    · rw [buffer_of_miss hmiss, if_neg]
      rintro rfl
      rw [hbank, place_add _ hlt] at hplc
      exact Nat.lt_irrefl _ hplc
  · rw [hact]
    exact hlt
  · rw [hact]
    exact iterate_succ_of_eq hpc'
  · rw [hslot]
    exact hsettles.slot hgoing
  · rw [hfst]
    exact hsettles.parity hgoing
  · rw [hact] at hidle'
    cases hidle'
  · rw [reqBank_of_miss hmiss, hbank, hfst, reqPc_of_miss hmiss, hpc, reqAddr_of_miss hmiss, hpc]
    exact ⟨rfl, hpc', rfl⟩

theorem Runs.misses : ∃ n', (s.streamed j).Runs (s.nextAfter j next) (pcAfter pc) n' True := by
  cases hstream : s.streamEmpty with
  | true => exact ⟨_, h.misses_first hmiss hpc hstream⟩
  | false => exact ⟨_, h.misses_behind hmiss hpc hstream⟩

end

end Miss

/-! ### A line that is resident -/

/-- A unit that holds nothing unread goes on at any address. -/
theorem runs_empty (hcnt : ∀ bank, (s.buffer bank).count = 0) (hact : s.reqActiveQ = false) :
    s.Runs pc pc 0 False where
  queued := queued_empty hcnt _ _
  room := by rw [hact]; decide
  pc := by rw [hact]; rfl
  begun hpos := by rw [hact] at hpos; exact Nat.lt_irrefl 0 hpos
  slot h := h.elim
  parity h := h.elim
  tail h := h.elim
  request h := by rw [hact] at h; cases h

/-- A line may be read from `pc` on where it lies, and its first word in the same cycle. -/
theorem runs_replayed {bank : BitVec 3} (fire : Bool) (hfst : s.readBankQ = bank)
    (hwr : s.writeBankQ = bank + 1) (hact : s.reqActiveQ = false)
    (hoth : ∀ b, b ≠ bank → (s.buffer b).count = 0)
    (hcnt : (s.buffer bank).count =
      if fire then if pc.getLsbD 2 then 0 else 1 else unreadFrom pc)
    (hline : lineAt s.buffer bank = lineOf pc) (hresid : (s.buffer bank).resident)
    (hparity : bank.toNat % 2 = (lineOf pc).toNat % 2)
    (hslot : (fire && pc.getLsbD 2) = false → s.readSlotQ = (fire ^^ pc.getLsbD 2)) :
    ∃ n' going', s.Runs (if fire then pc + 4 else pc) (pcAfter pc) n' going' := by
  cases hdone : fire && pc.getLsbD 2 with
  | true =>
    rw [and_eq_true] at hdone
    rw [hdone.1, hdone.2, if_pos rfl, if_pos rfl] at hcnt
    refine ⟨0, False, ?_⟩
    rw [hdone.1, if_pos rfl, pcAfter_of_upper hdone.2]
    refine runs_empty (fun b => ?_) hact
    by_cases hb : b = bank
    · rw [hb]
      exact hcnt
    · exact hoth b hb
  | false =>
    have hslot := hslot hdone
    have hnxt : lineOf (if fire then pc + 4 else pc) = lineOf pc ∧
        (if fire then pc + 4 else pc).getLsbD 2 = (fire ^^ pc.getLsbD 2) ∧
        pcAfter (if fire then pc + 4 else pc) = pcAfter pc := by
      cases fire with
      | false => exact ⟨rfl, (false_xor _).symm, rfl⟩
      | true =>
        rw [Bool.true_and] at hdone
        rw [if_pos rfl, lineOf_add, getLsbD_two_add, pcAfter_add hdone, hdone, if_low]
        exact ⟨BitVec.add_zero _, rfl, rfl⟩
    have hunread : (s.buffer bank).count = unreadFrom (if fire then pc + 4 else pc) := by
      rw [hcnt, unreadFrom, unreadFrom, hnxt.2.1]
      cases fire with
      | false => rw [false_xor]; rfl
      | true =>
        rw [Bool.true_and] at hdone
        rw [hdone]
        rfl
    have hz : bank + ofNat 3 0 = bank := BitVec.add_zero bank
    have hemp : Queued (fun b => { s.buffer b with count := 0 }) bank
        (if fire then pc + 4 else pc) 0 := queued_empty (fun _ => rfl) _ _
    refine ⟨1, True, ?_, by rw [hact]; decide, ?_, fun _ => trivial, fun _ => ?_, fun _ => ?_,
      fun _ _ => ?_, fun h => ?_⟩
    · rw [hfst]
      refine hemp.push (by decide) (fun b hb => ?_) ?_ ?_ ?_
      · rw [hz] at hb
        have hb := hoth b hb
        cases hcell : s.buffer b with
        | mk =>
          rw [hcell] at hb
          cases hb
          rfl
      · rw [hz]
        exact hunread
      · rw [hz, hline]
        exact hnxt.1.symm
      · rw [hz]
        exact hresid
    · rw [hact]
      exact hnxt.2.2.symm
    · rw [hslot, hnxt.2.1]
    · rw [hfst, hnxt.1]
      exact hparity
    · rw [hwr, hfst]
      rfl
    · rw [hact] at h
      cases h

theorem settled_lineTag (bank : BitVec 3) (h : s.reqComplete j → bank ≠ s.reqBankQ) :
    (s.settled j bank).lineTag = (s.buffer bank).lineTag ∧
      (s.settled j bank).resident = (s.buffer bank).resident := by
  rw [settled, if_neg]
  · split <;> exact ⟨rfl, rfl⟩
  · rw [and_eq_true, beq_iff_eq]
    exact fun hcon => h hcon.1 hcon.2

section

variable (h : s.Runs next pc n going) (hpc : j.pcI = pc) (hredirect : j.redirectReplayI = false)
  (hhit : s.pcAcceptHit j)

include h hpc hredirect hhit

/-- Decode takes a replayed line in the cycle in which its address is accepted. -/
theorem Runs.startsAtHit (hstart : s.lookupStartsStream j) :
    next = pc ∧ s.bufferedDecodeFire j = false ∧
      ∃ n' going', (s.streamed j).Runs (if j.decodeReadyI then pc + 4 else pc) (pcAfter pc)
        n' going' := by
  have hlook : lookupPc j = pc := by
    rw [lookupPc, hredirect, if_low, hpc]
  obtain ⟨⟨hresid, hemp⟩, hidle⟩ : (s.lookupHit j ∧ s.queueEmpty) ∧ s.reqActiveQ = false := by
    rw [lookupStartsStream, and_eq_true, and_eq_true, not_eq_true'] at hstart
    exact hstart
  obtain ⟨hbank, hline, hparity⟩ := lookupBank_spec hresid
  rw [hlook] at hline hparity
  have hn : n = 0 := h.queueEmpty_iff.mp hemp
  have hz := FetchState.queueEmpty_iff.mp hemp
  have hcomp : s.reqComplete j = false := by rw [reqComplete, hidle, Bool.false_and]
  have hfire : s.bufferedDecodeFire j = false :=
    Bool.eq_false_of_not_eq_true fun hfire => by
      have hpos := h.pos_of_fire hfire
      omega
  have hstarts : s.requestStarts j = false := by
    rw [pcAcceptHit, and_eq_true] at hhit
    rw [requestStarts, pcAcceptMiss, hhit.2, Bool.not_true, Bool.and_false, Bool.false_and]
  have hrep : s.streamReplayFire j = j.decodeReadyI := by
    rw [streamReplayFire, streamReplayValid, hhit, hstart, Bool.true_and, Bool.true_and]
  have hbuffer : ∀ b, (s.streamed j).buffer b =
      if b = s.lookupBank j then
        { s.buffer b with
          count := if j.decodeReadyI then if pc.getLsbD 2 then 0 else 1 else unreadFrom pc }
      else s.buffer b := fun b => by
    change s.bufferNext j b = _
    simp only [bufferNext, hfire, hcomp, hstarts, hhit, hrep, hpc, Bool.false_and,
      Bool.true_and, if_low, beq_iff_eq]
  have hat : s.startsAtHit j := by rw [FetchState.startsAtHit, hhit, hstart]; rfl
  have hnxt : next = pc := by
    rw [h.pc, hn, hidle]
    rfl
  refine ⟨hnxt, hfire, runs_replayed j.decodeReadyI (if_pos hat) (if_pos hhit) ?_
    (fun b hb => ?_) ?_ ?_ ?_ hparity fun hdone => ?_⟩
  · change (s.requestStarts j || s.reqActiveQ && !s.reqComplete j) = false
    rw [hstarts, hidle]
    rfl
  · rw [hbuffer, if_neg hb]
    exact hz b
  · rw [hbuffer, if_pos rfl]
  · rw [lineAt, hbuffer, if_pos rfl]
    exact hline
  · rw [hbuffer, if_pos rfl]
    exact hbank
  · change (if s.startsAtHit j then _ else _) = _
    rw [hat, if_pos rfl, hrep, hpc]
    cases hrdy : j.decodeReadyI with
    | false => rw [Bool.false_or, false_xor]
    | true =>
      rw [hrdy, Bool.true_and] at hdone
      rw [hdone]
      rfl

/-- A line that is resident right behind the others joins them. -/
theorem Runs.hitsTail (hstart : s.lookupStartsStream j = false) :
    ∃ n' going', (s.streamed j).Runs (s.nextAfter j next) (pcAfter pc) n' going' := by
  have hlook : lookupPc j = pc := by
    rw [lookupPc, hredirect, if_low, hpc]
  obtain ⟨hacc, htail⟩ : s.pcAccept j ∧ s.lookupHitsTail j := by
    rw [pcAcceptHit, lookupReusable, hstart, Bool.false_or, and_eq_true] at hhit
    exact hhit
  obtain ⟨hroom, hfree⟩ := canStart_of_accept hacc hstart
  obtain ⟨hresid, hbank⟩ : s.lookupHit j ∧ s.lookupBank j = s.nextReqBank := by
    simp only [lookupHitsTail, and_eq_true, beq_iff_eq] at htail
    exact htail.1.1
  obtain ⟨hheld, hline, -⟩ := lookupBank_spec hresid
  rw [hlook] at hline
  have hstream : s.streamEmpty = false := by
    rw [lookupStartsStream, hresid, Bool.true_and] at hstart
    exact hstart
  have hgoing : going := h.begun (Nat.pos_of_ne_zero fun hz => by
    rw [h.streamEmpty_iff.mpr hz] at hstream
    cases hstream)
  have hlt := h.has_room hstream hroom
  rw [h.nextReqBank hgoing hfree] at hbank
  have hstarts : s.requestStarts j = false := by
    rw [pcAcceptHit, and_eq_true] at hhit
    rw [requestStarts, pcAcceptMiss, hhit.2, Bool.not_true, Bool.and_false, Bool.false_and]
  have hrep : s.streamReplayFire j = false := by
    rw [streamReplayFire, streamReplayValid, hstart, Bool.and_false, Bool.false_and]
  have hbuffer : ∀ b, (s.streamed j).buffer b =
      if b = s.lookupBank j then { s.settled j b with count := unreadFrom pc }
      else s.settled j b := fun b => by
    change s.bufferNext j b = _
    simp only [bufferNext, settled, hstarts, hhit, hrep, hpc, Bool.false_and, Bool.true_and,
      if_low, beq_iff_eq]
  have hoth : s.reqComplete j → s.lookupBank j ≠ s.reqBankQ := by
    intro hcomp hcon
    have hreq := (h.request (active_of_complete hcomp)).1
    rw [hbank, hreq, ← h.firstAfter_add (j := j), hcomp] at hcon
    have hplaces := congrArg (place (s.firstAfter j)) hcon
    rw [hcomp] at hlt
    rw [place_add _ hlt, place_add _ (Nat.lt_of_succ_lt hlt)] at hplaces
    exact Nat.succ_ne_self _ hplaces
  obtain ⟨htag, hsame⟩ := settled_lineTag _ hoth
  have hat : s.startsAtHit j = false := by
    rw [FetchState.startsAtHit, hstart, Bool.and_false]
  have hrequest : s.startsAtRequest j = false := by
    rw [startsAtRequest, hstarts, Bool.false_and, Bool.false_and]
  have hact : (s.streamed j).reqActiveQ = false := by
    change (s.requestStarts j || _) = false
    rw [hstarts, settled_of_free hfree]
    rfl
  have hfst : (s.streamed j).readBankQ = s.firstAfter j := by
    change (if s.startsAtHit j then _ else if s.startsAtRequest j then _ else _) = _
    rw [hat, hrequest, if_low, if_low]
    rfl
  have hslot : (s.streamed j).readSlotQ = (s.streamed (idle j)).readSlotQ := by
    change (if s.startsAtHit j then _ else if s.startsAtRequest j then _ else _) = _
    rw [hat, hrequest, if_low, if_low]
    rfl
  have hsettles := h.settles (j := j)
  have hidle : (s.streamed (idle j)).reqActiveQ = false := settled_of_free hfree
  have hpc' := hsettles.pc
  rw [hidle, toNat_false, Nat.add_zero] at hpc'
  refine ⟨s.leftAfter j n + (s.reqComplete j).toNat + 1, True, ?_, ?_, ?_, fun _ => trivial,
    fun _ => ?_, fun _ => ?_, fun _ _ => ?_, fun hcon => ?_⟩
  · rw [hfst]
    refine h.settled_queued.push hlt (fun b hb => ?_) ?_ ?_ ?_
    · rw [hbuffer, if_neg (hbank ▸ hb)]
    · rw [← hbank, hbuffer, if_pos rfl, hpc']
    · rw [← hbank, ← hpc', lineAt, hbuffer, if_pos rfl]
      rw [htag]
      exact hline
    · rw [← hbank, hbuffer, if_pos rfl]
      exact hsame.trans hheld
  · rw [hact]
    exact hlt
  · rw [hact]
    exact iterate_succ_of_eq hpc'
  · rw [hslot]
    exact hsettles.slot hgoing
  · rw [hfst]
    exact hsettles.parity hgoing
  · rw [hfst]
    refine (if_pos hhit).trans ?_
    rw [hbank, BitVec.add_assoc]
    exact congrArg (s.firstAfter j + ·) (ofNat_add _ 1).symm
  · rw [hact] at hcon
    cases hcon

end

/-! ### What the lines hold -/

/-- Nothing but an answer of memory changes a line. -/
theorem bufferNext_keeps (bank : BitVec 3) : (s.bufferNext j bank).Keeps
    (if s.reqComplete j && bank == s.reqBankQ then s.answeredLine j else s.buffer bank) := by
  simp only [bufferNext]
  split_ifs <;> exact ⟨rfl, rfl, rfl, rfl, fun h => by first | exact h | cases h⟩

theorem redirected_keeps (bank : BitVec 3) :
    ((s.redirected j).buffer bank).Keeps (s.buffer bank) := ⟨rfl, rfl, rfl, rfl, id⟩

theorem answeredLine_holds :
    (s.answeredLine j).Holds ⟨j.memRdataI, j.memFaultI, j.memPageFaultI⟩ := by
  refine ⟨fun upper => ?_, rfl, rfl⟩
  cases upper <;> rfl

theorem readPc_eq (hline : lineAt s.buffer s.readBankQ = lineOf next)
    (hslot : s.readSlotQ = next.getLsbD 2) : s.readPc = next &&& ~~~3 := by
  have hlt := next.isLt
  have happend : ((s.buffer s.readBankQ).lineTag ++ s.readBankQ.extractLsb' 0 1 ++ 0#3 :
      BitVec 64) = lineOf next ++ 0#3 :=
    congrArg (fun l : BitVec 61 => (l ++ 0#3 : BitVec 64)) hline
  have hstart : (lineOf next ++ 0#3 : BitVec 64).toNat = next.toNat / 8 * 8 := by
    rw [toNat_append, ← Nat.shiftLeft_add_eq_or_of_lt (isLt _), Nat.shiftLeft_eq, toNat_lineOf]
    rfl
  have hbase : (next &&& ~~~(3 : BitVec 64)).toNat = Napot.base 2 next.toNat :=
    Napot.toNat_and_not_mask rfl
  rw [Napot.base] at hbase
  rw [readPc, happend, hslot]
  apply eq_of_toNat_eq
  rw [hbase, toNat_add, hstart, getLsbD_two]
  by_cases hupper : next.toNat / 4 % 2 = 1
  · rw [if_pos (decide_eq_true hupper)]
    change (next.toNat / 8 * 8 + 4) % 2 ^ 64 = _
    omega
  · rw [if_neg (by rw [decide_eq_true_iff]; exact hupper)]
    change (next.toNat / 8 * 8 + 0) % 2 ^ 64 = _
    omega

end FetchState

namespace FetchStream

open FetchState

variable {enablePredecodeTargets : Bool} {t : FetchStream} {i : FetchFrontInput}

/-! ### The commands of a cycle -/

theorem redirectI_eq : (t.fetchInput i).redirectI = t.redirects i := rfl

theorem flushI_eq : (t.fetchInput i).flushI = t.flushes i := rfl

theorem step_fetch : (t.step i).fetch = t.fetch.step (t.fetchInput i) := rfl

theorem not_halted (h : t.flushes i = false) : t.front.haltedQ = false := (or_eq_false_iff.mp h).1

theorem pcReady_of_redirect (h : t.redirects i) : t.fetch.pcReadyO (t.fetchInput i) = false := by
  rw [pcReadyO, redirectI_eq, h, Bool.not_true, Bool.and_false, Bool.false_and]

theorem pcAccept_eq : t.fetch.pcAccept (t.fetchInput i) = t.front.fetchPcValid i := by
  have hrdy : t.fetch.pcReadyO (t.fetchInput i) =
      t.front.fetch.pcReadyO (t.front.fetchPort i) := rfl
  rw [pcAccept, hrdy]
  change (t.front.fetchPcValid i && _) = _
  rw [fetchPcValid]
  cases t.front.fetch.pcReadyO (t.front.fetchPort i) with
  | true => rw [Bool.and_true]
  | false => rw [Bool.and_false, Bool.false_and, Bool.false_and]

theorem decodeValid_of_flush (h : t.flushes i) : t.decodeValid i = false := by
  change t.fetch.decodeValidO (t.fetchInput i) = false
  rw [decodeValidO, flushI_eq, h]
  rfl

theorem decodeValid_of_redirect (h : t.redirects i) (hfl : t.flushes i = false) :
    t.decodeValid i = t.fetch.redirectReplayValid (t.fetchInput i) := by
  change t.fetch.decodeValidO (t.fetchInput i) = _
  have hacc : t.fetch.pcAccept (t.fetchInput i) = false := by
    rw [pcAccept, pcReady_of_redirect h, Bool.and_false]
  rw [decodeValidO, flushI_eq, hfl, replayValid, streamReplayValid, pcAcceptHit, hacc,
    bufferedDecodeValid, redirectI_eq, h]
  simp

theorem decodeValid_of_stream (h : t.redirects i = false) (hfl : t.flushes i = false) :
    t.decodeValid i = (t.fetch.streamReplayValid (t.fetchInput i) ||
      t.fetch.unread t.fetch.readBankQ) := by
  change t.fetch.decodeValidO (t.fetchInput i) = _
  rw [decodeValidO, flushI_eq, hfl, replayValid, redirectReplayValid, redirectI_eq, h,
    bufferedDecodeValid, redirectI_eq, h]
  simp

theorem command_of_flush (h : t.flushes i) (hhalted : t.front.haltedQ = false) :
    t.expected i = t.front.pcNext i := by
  have hinvalidates : i.command.invalidates := by
    have hor : (t.front.haltedQ || i.command.invalidates) := h
    rwa [hhalted, Bool.false_or] at hor
  rw [expected, pcNext]
  cases hcmd : i.command with
  | restart target both => rfl
  | ebreak =>
    have hval : t.front.fetchPcValid i = false := by
      rw [fetchPcValid, hcmd]
      exact Bool.and_false _
    rw [hval]
    rfl
  | redirect target =>
    rw [hcmd] at hinvalidates
    cases hinvalidates
  | predict target fast =>
    rw [hcmd] at hinvalidates
    cases hinvalidates
  | stream hold =>
    rw [hcmd] at hinvalidates
    cases hinvalidates

theorem command_of_redirect (h : t.redirects i) (hfl : t.flushes i = false) :
    (t.expected i = t.front.pcNext i ∧ t.fetch.redirectReplayValid (t.fetchInput i) = false) ∨
      ∃ target, t.expected i = target ∧ (t.fetchInput i).redirectPcI = target ∧
        (t.fetchInput i).redirectReplayI ∧ t.front.pcNext i =
          if t.fetch.redirectReplayO (t.fetchInput i) then pcAfter target else target := by
  have hinvalidates : i.command.invalidates = false := (or_eq_false_iff.mp hfl).2
  have hredirects : i.command.redirects := h
  have hreplays : (t.fetchInput i).redirectReplayI = i.command.replays := rfl
  have hpc : (t.fetchInput i).redirectPcI = predictTarget i := rfl
  rw [redirectReplayValid, hreplays, hpc, expected, pcNext, predictTarget]
  cases hcmd : i.command with
  | restart target both =>
    rw [hcmd] at hinvalidates
    cases hinvalidates
  | redirect target =>
    left
    have hrep : (FetchCommand.redirect target).replays = false := rfl
    rw [hrep, Bool.and_false, Bool.false_and]
    exact ⟨rfl, rfl⟩
  | ebreak =>
    rw [hcmd] at hredirects
    cases hredirects
  | predict target fast =>
    cases fast with
    | true => exact .inr ⟨target, rfl, rfl, rfl, rfl⟩
    | false =>
      left
      have hrep : t.fetch.redirectReplayO (t.fetchInput i) = false := by
        rw [redirectReplayO, redirectReplayValid, hreplays, hcmd, FetchCommand.replays,
          Bool.and_false, Bool.false_and, Bool.false_and]
      refine ⟨?_, by rw [FetchCommand.replays, Bool.and_false, Bool.false_and]⟩
      change target = if t.fetch.redirectReplayO (t.fetchInput i) then _ else target
      rw [hrep, if_low]
  | stream hold =>
    rw [hcmd] at hredirects
    cases hredirects

theorem replayI_of_stream (h : t.redirects i = false) :
    (t.fetchInput i).redirectReplayI = false := by
  have hredirects : i.command.redirects = false := h
  change i.command.replays = false
  cases hcmd : i.command with
  | predict target fast =>
    rw [hcmd] at hredirects
    cases hredirects
  | _ => rfl

theorem command_of_stream (h : t.redirects i = false) (hfl : t.flushes i = false) :
    t.expected i = t.next ∧ t.front.pcNext i =
      if t.fetch.pcAccept (t.fetchInput i) then pcAfter t.front.pcQ else t.front.pcQ := by
  have hinvalidates : i.command.invalidates = false := (or_eq_false_iff.mp hfl).2
  have hredirects : i.command.redirects = false := h
  rw [pcAccept_eq, expected, pcNext]
  cases hcmd : i.command with
  | stream hold => exact ⟨rfl, rfl⟩
  | restart target both =>
    rw [hcmd] at hinvalidates
    cases hinvalidates
  | ebreak =>
    rw [hcmd] at hinvalidates
    cases hinvalidates
  | redirect target =>
    rw [hcmd] at hredirects
    cases hredirects
  | predict target fast =>
    rw [hcmd] at hredirects
    cases hredirects

/-! ### The stream -/

/-- Every resident line is one that memory has given. -/
def LinesGiven (t : FetchStream) : Prop :=
  ∀ bank, (t.fetch.buffer bank).resident = true →
    ∃ a, (lineAt t.fetch.buffer bank, a) ∈ t.given ∧ (t.fetch.buffer bank).Holds a

/-- Whatever predecode says of a resident word is right. -/
def Predecoded (t : FetchStream) : Prop :=
  ∀ bank upper, (t.predecode.target bank upper).valid = true →
    t.predecode.target bank upper = predecodeOf ((t.fetch.buffer bank).slot upper)

/-- The unit runs behind what decode has had, out of lines that memory has given. -/
structure Inv (t : FetchStream) : Prop where
  runs : t.front.haltedQ = false → ∃ n going, t.fetch.Runs t.next t.front.pcQ n going
  lines : t.front.haltedQ = false → LinesGiven t
  predecoded : Predecoded t

theorem inv_reset : Inv .reset where
  runs _ := ⟨0, False, runs_empty (fun _ => rfl) rfl⟩
  lines _ _ hresid := by cases hresid
  predecoded _ _ hval := by cases hval

theorem step_next (h : t.decodeValid i → i.decodeReadyI = false) :
    (t.step i).next = t.expected i := by
  refine if_neg fun hfire => ?_
  obtain ⟨hval, hrdy⟩ := Bool.and_eq_true_iff.mp hfire
  rw [h hval] at hrdy
  cases hrdy

theorem runs_flush (hfl : t.flushes i) (hhalted : t.front.haltedQ = false) :
    (t.step i).fetch.Runs (t.step i).next (t.step i).front.pcQ 0 False := by
  have hfetch : (t.step i).fetch = .flushed := if_pos hfl
  have hnxt : (t.step i).next = t.expected i := step_next fun hval => by
    rw [decodeValid_of_flush hfl] at hval
    cases hval
  rw [hnxt, command_of_flush hfl hhalted, hfetch]
  exact runs_empty (fun _ => rfl) rfl

theorem fetch_of_redirect (h : t.redirects i) (hfl : t.flushes i = false) :
    (t.step i).fetch = t.fetch.redirected (t.fetchInput i) := by
  rw [step_fetch, FetchState.step, flushI_eq, hfl, redirectI_eq, h]
  rfl

theorem fetch_of_stream (h : t.redirects i = false) (hfl : t.flushes i = false) :
    (t.step i).fetch = t.fetch.streamed (t.fetchInput i) := by
  rw [step_fetch, FetchState.step, flushI_eq, hfl, redirectI_eq, h]
  rfl

/-- A redirect begins a stream, at a resident line when decode takes its first word. -/
theorem runs_redirect (h : t.redirects i) (hfl : t.flushes i = false) (htaken : t.ReplayTaken i) :
    ∃ n going, (t.step i).fetch.Runs (t.step i).next (t.step i).front.pcQ n going := by
  rw [fetch_of_redirect h hfl]
  change ∃ n going, (t.fetch.redirected (t.fetchInput i)).Runs _ (t.front.pcNext i) n going
  cases hrep : t.fetch.redirectReplayValid (t.fetchInput i) with
  | false =>
    have hnxt : (t.step i).next = t.expected i := step_next fun hval => by
      rw [decodeValid_of_redirect h hfl, hrep] at hval
      cases hval
    have hpc : t.expected i = t.front.pcNext i := by
      rcases command_of_redirect h hfl with ⟨heq, -⟩ | ⟨target, hexp, -, -, hpc⟩
      · exact heq
      · rw [hexp, hpc, redirectReplayO, hrep, Bool.false_and, if_low]
    rw [hnxt, hpc]
    refine ⟨0, False, runs_empty (fun bank => ?_) rfl⟩
    change (if _ then _ else _) = _
    rw [hrep, Bool.false_and, if_low]
  | true =>
    have hrdy : i.decodeReadyI := htaken (not_halted hfl) hrep
    have hhit : t.fetch.lookupHit (t.fetchInput i) := by
      rw [redirectReplayValid, and_eq_true] at hrep
      exact hrep.2
    obtain ⟨hresid, hline, hparity⟩ := lookupBank_spec hhit
    rcases command_of_redirect h hfl with ⟨-, hnot⟩ | ⟨target, hexp, hpc, hreq, hnxt⟩
    · rw [hrep] at hnot
      cases hnot
    have hlook : lookupPc (t.fetchInput i) = target := by
      rw [lookupPc, hreq, if_pos rfl, hpc]
    have hfire : t.fetch.redirectReplayO (t.fetchInput i) := by
      rw [redirectReplayO, hrep]
      exact hrdy
    have hafter : (t.step i).next = target + 4 := by
      rw [← hexp]
      refine if_pos ?_
      change (t.decodeValid i && _)
      rw [decodeValid_of_redirect h hfl, hrep]
      exact hrdy
    rw [hlook] at hline hparity
    rw [hnxt, if_pos hfire, hafter]
    refine runs_replayed true (if_pos hrep) (if_pos hrep) rfl (fun b hb => ?_)
      ?_ hline hresid hparity fun _ => ?_
    · change (if _ then _ else _) = _
      rw [hrep, Bool.true_and, if_neg (by rw [beq_iff_eq]; exact hb)]
    · change (if _ then _ else _) = _
      rw [hrep, Bool.true_and, if_pos (beq_self_eq_true _), replayCount, hfire, hpc]
    · change (_ && (_ ^^ _)) = _
      rw [hrep, hfire, hpc, Bool.true_and, Bool.xor_comm]

theorem runs_stream (h : t.redirects i = false) (hfl : t.flushes i = false)
    (hruns : ∃ n going, t.fetch.Runs t.next t.front.pcQ n going) :
    ∃ n going, (t.step i).fetch.Runs (t.step i).next (t.step i).front.pcQ n going := by
  obtain ⟨n, going, hruns⟩ := hruns
  obtain ⟨hexp, hpc⟩ := command_of_stream h hfl
  have hfire : t.front.decodeFire i = ((t.fetch.streamReplayValid (t.fetchInput i) ||
      t.fetch.unread t.fetch.readBankQ) && i.decodeReadyI) := by
    rw [← decodeValid_of_stream h hfl]
    rfl
  have hbuffered : t.fetch.bufferedDecodeFire (t.fetchInput i) =
      (t.fetch.unread t.fetch.readBankQ && i.decodeReadyI) := by
    rw [bufferedDecodeFire, bufferedDecodeValid, redirectI_eq, h, Bool.not_false, Bool.true_and]
    rfl
  have hreplayI := replayI_of_stream h
  have hafter : t.fetch.streamReplayValid (t.fetchInput i) = false →
      (t.step i).next = t.fetch.nextAfter (t.fetchInput i) t.next := by
    intro hnone
    change (if t.front.decodeFire i then t.expected i + 4 else t.expected i) = _
    rw [hfire, hnone, Bool.false_or, ← hbuffered, hexp]
    rfl
  rw [fetch_of_stream h hfl]
  change ∃ n going, (t.fetch.streamed (t.fetchInput i)).Runs _ (t.front.pcNext i) n going
  rw [hpc]
  cases hacc : t.fetch.pcAccept (t.fetchInput i) with
  | false =>
    have hnone : t.fetch.streamReplayValid (t.fetchInput i) = false := by
      rw [streamReplayValid, pcAcceptHit, hacc, Bool.false_and, Bool.false_and]
    rw [if_low, hafter hnone, streamed_of_not_accept hacc]
    exact ⟨_, going, hruns.settles⟩
  | true =>
    rw [if_pos rfl]
    cases hreuse : t.fetch.lookupReusable (t.fetchInput i) with
    | false =>
      have hmiss : t.fetch.pcAcceptMiss (t.fetchInput i) := by
        rw [pcAcceptMiss, hacc, hreuse]
        rfl
      have hnone : t.fetch.streamReplayValid (t.fetchInput i) = false := by
        rw [streamReplayValid, pcAcceptHit, hacc, hreuse, Bool.and_false, Bool.false_and]
      rw [hafter hnone]
      obtain ⟨n', hmisses⟩ := hruns.misses hmiss rfl
      exact ⟨n', True, hmisses⟩
    | true =>
      have hhit : t.fetch.pcAcceptHit (t.fetchInput i) := by
        rw [pcAcceptHit, hacc, hreuse]
        rfl
      cases hstart : t.fetch.lookupStartsStream (t.fetchInput i) with
      | false =>
        have hnone : t.fetch.streamReplayValid (t.fetchInput i) = false := by
          rw [streamReplayValid, hstart, Bool.and_false]
        rw [hafter hnone]
        exact hruns.hitsTail rfl hreplayI hhit hstart
      | true =>
        obtain ⟨hnxt, -, hstarts⟩ := hruns.startsAtHit rfl hreplayI hhit hstart
        have hval : t.fetch.streamReplayValid (t.fetchInput i) := by
          rw [streamReplayValid, hhit, hstart]
          rfl
        have hafter : (t.step i).next =
            if (t.fetchInput i).decodeReadyI then t.front.pcQ + 4 else t.front.pcQ := by
          change (if t.front.decodeFire i then t.expected i + 4 else t.expected i) = _
          rw [hfire, hval, Bool.true_or, Bool.true_and, hexp, hnxt]
          rfl
        rw [hafter]
        exact hstarts

/-! ### The lines and their predecode -/

/-- The line in a bank after a cycle that does not flush. -/
theorem step_keeps (hfl : t.flushes i = false) (bank : BitVec 3) :
    ((t.step i).fetch.buffer bank).Keeps
      (if !t.redirects i && (t.fetch.reqComplete (t.fetchInput i) && bank == t.fetch.reqBankQ) then
        t.fetch.answeredLine (t.fetchInput i) else t.fetch.buffer bank) := by
  cases h : t.redirects i with
  | true =>
    rw [fetch_of_redirect h hfl]
    exact redirected_keeps bank
  | false =>
    rw [fetch_of_stream h hfl, Bool.not_false, Bool.true_and]
    exact bufferNext_keeps bank

/-- The answer of memory goes into a bank of its set. -/
theorem Inv.answered_line (hinv : t.Inv) (hhalted : t.front.haltedQ = false)
    (hcomp : t.fetch.reqComplete (t.fetchInput i)) :
    (t.fetch.answeredLine (t.fetchInput i)).lineTag ++ t.fetch.reqBankQ.extractLsb' 0 1 =
      lineOf t.fetch.reqAddrQ := by
  obtain ⟨n, going, hruns⟩ := hinv.runs hhalted
  have hact := active_of_complete hcomp
  obtain ⟨hbank, hpc, haddr⟩ := hruns.request hact
  have hparity : t.fetch.reqBankQ.toNat % 2 = (lineOf t.fetch.reqAddrQ).toNat % 2 := by
    rw [haddr, hbank, hpc, lineOf_iterate]
    exact parity_add (hruns.parity (hruns.begun (by rw [hact]; exact Nat.succ_pos n))) n
  have htag : (t.fetch.answeredLine (t.fetchInput i)).lineTag =
      (lineOf t.fetch.reqAddrQ).extractLsb' 1 60 := (extractLsb'_lineOf _).symm
  rw [htag]
  exact append_bank_eq hparity

theorem Inv.step_lines (hinv : t.Inv) (hhalted : t.front.haltedQ = false) :
    LinesGiven (t.step i) := by
  intro bank hresid
  cases hfl : t.flushes i with
  | true =>
    have hfetch : (t.step i).fetch = .flushed := if_pos hfl
    rw [hfetch] at hresid
    cases hresid
  | false =>
    have hkeeps := step_keeps hfl bank
    have hresid := hkeeps.resident hresid
    have hgiven : (t.step i).given = if t.fetch.reqComplete (t.fetchInput i) && !t.redirects i
        then (lineOf t.fetch.reqAddrQ, memAnswer i) :: t.given else t.given := by
      change t.givenNext i = _
      rw [givenNext, hfl, if_low]
    rw [lineAt, hkeeps.lineTag]
    cases hans : !t.redirects i &&
        (t.fetch.reqComplete (t.fetchInput i) && bank == t.fetch.reqBankQ) with
    | true =>
      rw [hans, if_pos rfl] at hkeeps
      rw [and_eq_true, and_eq_true, beq_iff_eq] at hans
      obtain ⟨hredirect, hcomp, rfl⟩ := hans
      refine ⟨memAnswer i, ?_, hkeeps.holds answeredLine_holds⟩
      rw [if_pos rfl, hinv.answered_line hhalted hcomp, hgiven, hcomp, hredirect]
      exact List.mem_cons_self
    | false =>
      rw [hans, if_low] at hkeeps hresid
      obtain ⟨a, hmem, hholds⟩ := hinv.lines hhalted bank hresid
      refine ⟨a, ?_, hkeeps.holds hholds⟩
      rw [if_low, hgiven]
      split
      · exact List.mem_cons_of_mem _ hmem
      · exact hmem

theorem Inv.step_predecoded (hinv : t.Inv) : Predecoded (t.step i) := by
  intro bank upper hval
  cases hfl : t.flushes i with
  | true =>
    have hpredecode : (t.step i).predecode = .reset := if_pos hfl
    rw [hpredecode] at hval
    cases hval
  | false =>
    have htgt : (t.step i).predecode.target bank upper =
        t.predecode.targetNext t.fetch (t.fetchInput i) bank upper := by
      change (PredecodeState.step _ _ _).target bank upper = _
      rw [PredecodeState.step, flushI_eq, hfl, if_low]
    rw [htgt, PredecodeState.targetNext] at hval ⊢
    cases hans : t.fetch.reqComplete (t.fetchInput i) && bank == t.fetch.reqBankQ with
    | true =>
      rw [hans, if_pos rfl] at hval
      cases hval
    | false =>
      have hkeeps := step_keeps hfl bank
      rw [hans, Bool.and_false, if_low] at hkeeps
      rw [hans, if_low] at hval
      rw [if_low, hkeeps.slot]
      split at hval
      · rename_i hpend
        rw [if_pos hpend]
      · rename_i hpend
        rw [if_neg hpend]
        exact hinv.predecoded bank upper hval

theorem Inv.step (hinv : t.Inv) (htaken : t.ReplayTaken i) : Inv (t.step i) := by
  have hhalted : (t.step i).front.haltedQ = false → t.front.haltedQ = false := fun h =>
    (or_eq_false_iff.mp h).1
  refine ⟨fun h => ?_, fun h => hinv.step_lines (hhalted h), hinv.step_predecoded⟩
  cases hfl : t.flushes i with
  | true => exact ⟨0, False, runs_flush hfl (hhalted h)⟩
  | false =>
    cases hredirect : t.redirects i with
    | true => exact runs_redirect hredirect hfl htaken
    | false => exact runs_stream hredirect hfl (hinv.runs (hhalted h))

/-! ### What goes to decode -/

theorem Predecoded.decodeO (h : Predecoded t)
    (hval : (t.predecodeO enablePredecodeTargets i).valid) :
    t.predecodeO enablePredecodeTargets i = predecodeOf (t.packet i).instr := by
  rw [predecodeO, PredecodeState.decodeO] at hval ⊢
  rw [packet, FetchState.decodeO]
  cases enablePredecodeTargets with
  | false =>
    rw [Bool.not_false, if_pos rfl] at hval
    cases hval
  | true =>
    rw [Bool.not_true, if_low] at hval ⊢
    cases hrep : t.fetch.replayValid (t.fetchInput i) with
    | true =>
      rw [hrep, if_pos rfl] at hval
      exact h _ _ hval
    | false =>
      rw [hrep, if_low] at hval
      exact h _ _ hval

/-- A line that is looked up hands out the word at the address. -/
theorem LinesGiven.replayed (h : LinesGiven t) {pc : BitVec 64}
    (hrep : t.fetch.replayValid (t.fetchInput i))
    (hpc : t.fetch.replayPc (t.fetchInput i) = pc) (hlook : lookupPc (t.fetchInput i) = pc)
    (hhit : t.fetch.lookupHit (t.fetchInput i)) : IsAt t.given pc (t.packet i) := by
  obtain ⟨hresid, hline, -⟩ := lookupBank_spec hhit
  obtain ⟨a, hmem, hholds⟩ := h _ hresid
  rw [hline, hlook] at hmem
  have hpacket : t.packet i =
      ⟨pc, (t.fetch.buffer (t.fetch.lookupBank (t.fetchInput i))).slot (pc.getLsbD 2),
        (t.fetch.buffer (t.fetch.lookupBank (t.fetchInput i))).fault,
        (t.fetch.buffer (t.fetch.lookupBank (t.fetchInput i))).pageFault⟩ := by
    rw [packet, FetchState.decodeO, if_pos hrep, hpc]
  rw [hpacket]
  exact ⟨.inl rfl, a, hmem, hholds.slot _, hholds.fault, hholds.pageFault⟩

theorem Inv.redirect_packet (hinv : t.Inv) (h : t.redirects i) (hfl : t.flushes i = false)
    (hrep : t.fetch.redirectReplayValid (t.fetchInput i)) :
    IsAt t.given (t.expected i) (t.packet i) := by
  have hhit : t.fetch.lookupHit (t.fetchInput i) := by
    rw [redirectReplayValid, and_eq_true] at hrep
    exact hrep.2
  rcases command_of_redirect h hfl with ⟨-, hnot⟩ | ⟨target, hexp, hpc, hreq, -⟩
  · rw [hrep] at hnot
    cases hnot
  rw [hexp]
  refine (hinv.lines (not_halted hfl)).replayed ?_ ?_ ?_ hhit
  · rw [replayValid, hrep, Bool.true_or]
  · rw [replayPc, hrep, if_pos rfl, hpc]
  · rw [lookupPc, hreq, if_pos rfl, hpc]

theorem Inv.stream_packet (hinv : t.Inv) (h : t.redirects i = false)
    (hfl : t.flushes i = false) (hval : t.decodeValid i) :
    IsAt t.given (t.expected i) (t.packet i) := by
  have hhalted := not_halted hfl
  have hlines := hinv.lines hhalted
  obtain ⟨n, going, hruns⟩ := hinv.runs hhalted
  have hnot : t.fetch.redirectReplayValid (t.fetchInput i) = false := by
    rw [redirectReplayValid, redirectI_eq, h, Bool.false_and, Bool.false_and]
  have hreplayI := replayI_of_stream h
  rw [decodeValid_of_stream h hfl, or_eq_true] at hval
  rw [(command_of_stream h hfl).1]
  cases hstream : t.fetch.streamReplayValid (t.fetchInput i) with
  | true =>
    have hparts := hstream
    rw [streamReplayValid, and_eq_true] at hparts
    obtain ⟨hnxt, -, -⟩ := hruns.startsAtHit rfl hreplayI hparts.1 hparts.2
    have hhit := hparts.2
    rw [lookupStartsStream, and_eq_true, and_eq_true] at hhit
    rw [hnxt]
    refine hlines.replayed ?_ ?_ ?_ hhit.1.1
    · rw [replayValid, hstream, Bool.or_true]
    · rw [replayPc, hnot, if_low]
      rfl
    · rw [lookupPc, hreplayI, if_low]
      rfl
  | false =>
    have hunread : t.fetch.unread t.fetch.readBankQ := by
      rcases hval with hval | hval
      · rw [hstream] at hval
        cases hval
      · exact hval
    have hpos := hruns.unread_readBank.mp hunread
    have hplc : place t.fetch.readBankQ t.fetch.readBankQ < n := by
      rw [place_self]
      exact hpos
    have hline : lineAt t.fetch.buffer t.fetch.readBankQ = lineOf t.next := by
      rw [hruns.queued.line _ hplc, place_self]
      exact BitVec.add_zero _
    have hslot := hruns.slot (hruns.begun (Nat.add_pos_left hpos _))
    obtain ⟨a, hmem, hholds⟩ := hlines _ (hruns.queued.resident _ hplc)
    have hpacket : t.packet i =
        ⟨t.fetch.readPc, (t.fetch.buffer t.fetch.readBankQ).slot t.fetch.readSlotQ,
          (t.fetch.buffer t.fetch.readBankQ).fault,
          (t.fetch.buffer t.fetch.readBankQ).pageFault⟩ := by
      rw [packet, FetchState.decodeO, replayValid, hnot, hstream, Bool.false_or, if_low]
    rw [hpacket, readPc_eq hline hslot, hslot]
    rw [hline] at hmem
    exact ⟨.inr rfl, a, hmem, hholds.slot _, hholds.fault, hholds.pageFault⟩

/-- The unit waits for nothing but decode and memory. -/
theorem Inv.goesOn (hinv : t.Inv) (hhalted : t.front.haltedQ = false)
    (hcmd : i.command = .stream false) :
    t.decodeValid i ∨ t.fetch.reqActiveQ ∨ t.fetch.pcAccept (t.fetchInput i) := by
  obtain ⟨n, going, hruns⟩ := hinv.runs hhalted
  have hfl : t.flushes i = false := by
    change (t.front.haltedQ || i.command.invalidates) = false
    rw [hhalted, hcmd]
    rfl
  have hredirect : t.redirects i = false := by
    change i.command.redirects = false
    rw [hcmd]
    rfl
  cases hact : t.fetch.reqActiveQ with
  | true => exact .inr (.inl rfl)
  | false =>
  rcases Nat.eq_zero_or_pos n with rfl | hpos
  · right
    right
    have hemp : t.fetch.queueEmpty := hruns.queueEmpty_iff.mpr rfl
    have hunread : ∀ bank, t.fetch.unread bank = false := fun bank => by
      rw [unread, FetchState.queueEmpty_iff.mp hemp bank]
      rfl
    have hstart : t.fetch.requestCanStart (t.fetchInput i) := by
      rw [requestCanStart, missBankEmpty, hunread, hact]
      rfl
    have hrdy : t.fetch.pcReadyO (t.fetchInput i) := by
      rw [pcReadyO, flushI_eq, redirectI_eq, hfl, hredirect, hstart, Bool.or_true]
      rfl
    have hport : t.fetch.pcReadyO (t.fetchInput i) =
        t.front.fetch.pcReadyO (t.front.fetchPort i) := rfl
    rw [pcAccept_eq, fetchPcValid, ← hport, hrdy, hhalted, hcmd]
    rfl
  · left
    rw [decodeValid_of_stream hredirect hfl, hruns.unread_readBank.mpr hpos, Bool.or_true]

section

variable {past : Past FetchStream FetchFrontInput}
  (hrun : Run fetchStream (cycleEnv ReplayTaken) past t)

include hrun

theorem inv_of_run : t.Inv := by
  refine Run.stateInvariant (fun s hinit => ?_) (fun _ _ _ henv hinv => hinv.step henv) hrun
  have hreset : s = .reset := hinit
  rw [hreset]
  exact inv_reset

end

/-! ### A loop in one line -/

def fetchQuiet : FetchFrontInput := ⟨.stream true, 0, false, false, 0, false, false, false⟩

def fetchTakes : FetchFrontInput := { fetchQuiet with decodeReadyI := true }

/-- A NOP and a jump back to it. -/
def fetchAnswers : FetchFrontInput :=
  { fetchQuiet with memReadyI := true, memRdataI := 0xffdff06f00000013 }

/-- The loop comes to decode, and the jump leaves it; `ready` says whether decode takes the NOP
at once. -/
def loopInLine (ready : Bool) : List FetchFrontInput :=
  [{ fetchQuiet with command := .restart 0x1000 false },
    { fetchQuiet with command := .stream false }, fetchAnswers, fetchTakes, fetchTakes,
    { fetchQuiet with command := .predict 0x1000 true, decodeReadyI := ready }]

/-- Decode does not take the NOP at once, but then whatever comes. -/
def loopTwice : List FetchFrontInput :=
  loopInLine false ++ [{ fetchQuiet with command := .stream false },
    { fetchAnswers with decodeReadyI := true }, fetchTakes]

end FetchStream

end OpenRV64
