import WebrtcWinXp.Messages.Queue
import WebrtcWinXp.Support.Transition

/-!
# Delivery of messages

Any threads post and clear messages while one thread gets them.  Time is
counted without bound here, and the 32 bits of a clock reading are those of a
time after some first reading.  Messages come out as they should as long as the
plain comparison of time stamps agrees with the order in time.
-/

namespace WebrtcWinXp.Messages

open Support

/-- The clock reading at a time, where the reading at time zero is given. -/
def reading (base : BitVec 32) (time : ℤ) : BitVec 32 :=
  base + BitVec.ofInt 32 time

/-- What tells messages apart: their number, and the time at which a delayed
message triggers. -/
structure Posting where
  serial : ℕ
  trigger : Option ℤ
  deriving DecidableEq

/-- Delayed messages are ordered by their trigger times, and then as they were
posted. -/
def Message.key (m : Message Posting) : ℤ ×ₗ ℕ :=
  toLex (m.pdata.trigger.getD 0, m.pdata.serial)

/-- Where `Get` is between its critical sections, and whether the message is
kept for `Peek`.  A scan uses the time that was read before. -/
inductive Phase where
  | idle
  | scan (keep : Bool) (msCurrent : ℤ)
  | pull (keep : Bool)
  | wait (keep : Bool)

structure Run where
  queue : MessageQueue Posting
  now : ℤ
  phase : Phase
  /-- How many messages have been posted. -/
  posted : ℕ
  /-- The messages that `Get` has returned, and the disposal messages whose
  data it has deleted. -/
  handled : List (Message Posting)
  cleared : List (Message Posting)
  /-- The delayed messages that were found triggered, each with the number of
  messages posted by then. -/
  collected : List (Message Posting × ℕ)

inductive Event where
  | tick (ms : ℕ)
  | post (phandler : Option ℕ) (id : BitVec 32)
  | postDelayed (cmsDelay : ℕ) (phandler : Option ℕ) (id : BitVec 32)
  | postAt (time : ℤ) (phandler : Option ℕ) (id : BitVec 32)
  | clear (phandler : Option ℕ) (id : BitVec 32)
  | getMessage (keep : Bool)
  | scan
  | pull
  | wake
  | giveUp

namespace Run

def new : Run where
  queue := .new
  now := 0
  phase := .idle
  posted := 0
  handled := []
  cleared := []
  collected := []

variable (base : BitVec 32) (s : Run)

def delayPost (time : ℤ) (tstamp : BitVec 32) (phandler : Option ℕ)
    (id : BitVec 32) : Run :=
  { s with
    queue := s.queue.doDelayPost tstamp phandler id ⟨s.posted, some time⟩
    posted := s.posted + 1 }

/-- The end of a pass: a message is returned, kept, deleted or awaited. -/
def pullOne (keep : Bool) : Run :=
  match s.queue.pull with
  | none =>
    { s with
      phase := .wait keep }
  | some (m, q) =>
    if m.messageId = MQID_DISPOSE then
      { s with
        queue := q
        phase := .pull keep
        handled := s.handled ++ [m] }
    else if keep then
      { s with
        queue :=
          { q with
            msgPeek := some m }
        phase := .idle }
    else
      { s with
        queue := q
        phase := .idle
        handled := s.handled ++ [m] }

def collect (msCurrent : ℤ) : Run :=
  { s with
    queue := s.queue.collect (reading base msCurrent)
    collected := s.collected ++
      (s.queue.triggered (reading base msCurrent)).1.map
        fun d => (d.msg, s.posted) }

/-- Delays are less than `HALF` milliseconds, and so are those into the past of
a time stamp. -/
def step : Event → Option Run
  | .tick ms =>
    some
      { s with
        now := s.now + ms }
  | .post phandler id =>
    some
      { s with
        queue := s.queue.post phandler id ⟨s.posted, none⟩
        posted := s.posted + 1 }
  | .postDelayed cmsDelay phandler id =>
    if cmsDelay < HALF then
      some (s.delayPost (s.now + cmsDelay)
        (timeAfter (reading base s.now) cmsDelay) phandler id)
    else none
  | .postAt time phandler id =>
    if s.now - HALF ≤ time ∧ time < s.now + HALF then
      some (s.delayPost time (reading base time) phandler id)
    else none
  | .clear phandler id =>
    let (q, removed) := s.queue.clear phandler id
    some
      { s with
        queue := q
        cleared := s.cleared ++ removed }
  | .getMessage keep =>
    match s.phase, s.queue.msgPeek with
    | .idle, none =>
      some
        { s with
          phase := .scan keep s.now }
    | .idle, some m =>
      if keep then some s
      else
        some
          { s with
            queue :=
              { s.queue with
                msgPeek := none }
            handled := s.handled ++ [m] }
    | _, _ => none
  | .scan =>
    match s.phase with
    | .scan keep msCurrent => some ((s.collect base msCurrent).pullOne keep)
    | _ => none
  | .pull =>
    match s.phase with
    | .pull keep => some (s.pullOne keep)
    | _ => none
  | .wake =>
    match s.phase with
    | .wait keep =>
      some
        { s with
          phase := .scan keep s.now }
    | _ => none
  | .giveUp =>
    match s.phase with
    | .wait _ =>
      some
        { s with
          phase := .idle }
    | _ => none

/-! ## What should hold -/

/-- The messages that `Get` has handled, then the peeked one and those in the
list, which it will handle next. -/
def lined : List (Message Posting) :=
  s.handled ++ s.queue.msgPeek.toList ++ s.queue.msgq

def waiting : List (Message Posting) := s.queue.dmsgq.map DelayedMessage.msg

structure Delivers : Prop where
  /-- Each posted message is handled once, cleared once or still there. -/
  kept : ((s.lined ++ s.waiting ++ s.cleared).map fun m => m.pdata.serial).Perm
    (List.range s.posted)
  /-- No delayed message leaves its place too early. -/
  due : ∀ m ∈ s.lined, ∀ time ∈ m.pdata.trigger, time ≤ s.now
  immediate : (s.lined.filter fun m => m.pdata.trigger.isNone).Pairwise
    fun m n => m.pdata.serial < n.pdata.serial
  delayed : (s.lined.filter fun m => m.pdata.trigger.isSome).Sublist
    (s.collected.map Prod.fst)
  /-- A delayed message is found triggered before another one only in the order
  of trigger times, or if the other one was posted later. -/
  ordered : s.collected.Pairwise fun a b =>
    a.1.key ≤ b.1.key ∨ a.2 ≤ b.1.pdata.serial

/-- `Clear` removes exactly the matching messages. -/
def Clears (phandler : Option ℕ) (id : BitVec 32) (t : Run) : Prop :=
  t.queue.msgPeek.toList = s.queue.msgPeek.toList.filter
      (fun m => !m.matchesFilter phandler id) ∧
    t.queue.msgq = s.queue.msgq.filter
      (fun m => !m.matchesFilter phandler id) ∧
    t.waiting = s.waiting.filter (fun m => !m.matchesFilter phandler id) ∧
    t.handled = s.handled ∧
    t.cleared = s.cleared ++
      (s.queue.msgPeek.toList ++ s.queue.msgq ++ s.waiting).filter
        fun m => m.matchesFilter phandler id

/-- A delayed message with a constant added to its time stamp. -/
def shiftStamp (c : BitVec 32) (d : DelayedMessage Posting) :
    DelayedMessage Posting :=
  { d with
    msTrigger := d.msTrigger + c }

def shift (c : BitVec 32) : Run :=
  { s with
    queue :=
      { s.queue with
        dmsgq := s.queue.dmsgq.map (shiftStamp c) } }

/-- The comparison of a new delayed message with those that wait agrees with
the order in time, and an ongoing scan does not take it for triggered. -/
def CarefulDelay (time : ℤ) (tstamp : BitVec 32) : Prop :=
  (∀ d ∈ s.queue.dmsgq, ∀ due ∈ d.msg.pdata.trigger,
    let e : DelayedMessage Posting :=
      ⟨tstamp, s.queue.dmsgqNextNum, ⟨none, 0, ⟨s.posted, some time⟩⟩⟩
    (d.lt e ↔ time < due) ∧ (e.lt d ↔ due ≤ time)) ∧
  match s.phase with
  | .scan _ msCurrent => time < msCurrent + HALF
  | _ => True

def Careful : Event → Prop
  | .postDelayed cmsDelay _ _ =>
    s.CarefulDelay (s.now + cmsDelay) (timeAfter (reading base s.now) cmsDelay)
  | .postAt time _ _ => s.CarefulDelay time (reading base time)
  | _ => True

theorem reading_add (time elapsed : ℤ) :
    reading base (time + elapsed) =
      BitVec.ofInt 32 elapsed + reading base time := by
  rw [reading, reading, BitVec.ofInt_add, ← BitVec.add_assoc, BitVec.add_comm]

theorem timeAfter_reading (time : ℤ) (elapsed : ℕ) :
    timeAfter (reading base time) elapsed = reading base (time + elapsed) := by
  rw [timeAfter, reading_add, BitVec.ofInt_natCast, BitVec.add_comm]

theorem reading_sub (time time' : ℤ) :
    reading base time' - reading base time = BitVec.ofInt 32 (time' - time) := by
  have h : reading base time' =
      BitVec.ofInt 32 (time' - time) + reading base time := by
    rw [← reading_add]
    congr 1
    omega
  rw [h, BitVec.add_sub_cancel]

/-- A time less than `HALF` ahead is later. -/
theorem timeIsLater_reading {time time' : ℤ} (hlt : time < time')
    (hle : time' < time + HALF) :
    timeIsLater (reading base time) (reading base time') := by
  have hhalf : HALF = 2147483648 := rfl
  rw [hhalf] at hle
  have hint : (BitVec.ofInt 32 (time' - time)).toInt = time' - time := by
    apply BitVec.toInt_ofInt_eq_self (by decide) <;> omega
  have hnat : (BitVec.ofInt 32 (time' - time)).toNat = (time' - time).toNat := by
    rw [BitVec.toNat_ofInt, Int.emod_eq_of_lt (by omega) (by omega)]
  rw [timeIsLater, reading_sub, hint, hnat, hhalf]
  exact decide_eq_true ⟨by omega, by omega⟩

structure Inv : Prop where
  delivers : s.Delivers
  slot : s.phase ≠ .idle → s.queue.msgPeek = none
  before : ∀ a ∈ s.collected, ∀ m ∈ s.waiting,
    a.1.key ≤ m.key ∨ a.2 ≤ m.pdata.serial
  collected_le : ∀ a ∈ s.collected, a.2 ≤ s.posted
  stamped : ∀ d ∈ s.queue.dmsgq, ∃ time, d.msg.pdata.trigger = some time ∧
    d.msTrigger = reading base time ∧ time < s.now + HALF ∧
    ∀ keep msCurrent, s.phase = .scan keep msCurrent → time < msCurrent + HALF
  scan_le : ∀ keep msCurrent, s.phase = .scan keep msCurrent →
    msCurrent ≤ s.now
  agrees : s.queue.dmsgq.Pairwise fun d e =>
    d.lt e = decide (e.msg.key < d.msg.key)

variable {base s} {t : Run}

theorem inv_new : Run.new.Inv base where
  delivers := ⟨.refl _, by simp [new, lined, MessageQueue.new],
    by simp [new, lined, MessageQueue.new],
    by simp [new, lined, MessageQueue.new], .nil⟩
  slot h := absurd rfl h
  before a ha := by cases ha
  collected_le a ha := by cases ha
  stamped d hd := by cases hd
  scan_le keep msCurrent h := by cases h
  agrees := .nil

theorem Delivers.serial_lt (h : s.Delivers) {m : Message Posting}
    (hm : m ∈ s.lined ++ s.waiting ++ s.cleared) :
    m.pdata.serial < s.posted :=
  List.mem_range.mp (h.kept.mem_iff.mp (List.mem_map_of_mem hm))

/-- A step that hands on messages in the order in which they are lined up. -/
structure Moves (s t : Run) : Prop where
  lined : t.lined = s.lined
  dmsgq : t.queue.dmsgq = s.queue.dmsgq
  cleared : t.cleared = s.cleared
  posted : t.posted = s.posted
  collected : t.collected = s.collected
  now_le : s.now ≤ t.now

theorem Inv.moves (h : s.Inv base) (hm : Moves s t)
    (hslot : t.phase ≠ .idle → t.queue.msgPeek = none)
    (hscan : ∀ keep msCurrent, t.phase = .scan keep msCurrent →
      msCurrent = s.now ∨ s.phase = .scan keep msCurrent) : t.Inv base where
  delivers := by
    obtain ⟨hkept, hdue, himmediate, hdelayed, hordered⟩ := h.delivers
    refine ⟨?_, ?_, ?_, ?_, ?_⟩
    · rw [hm.lined, waiting, hm.dmsgq, hm.cleared, hm.posted]
      exact hkept
    · rw [hm.lined]
      exact fun m hm' time htime => (hdue m hm' time htime).trans hm.now_le
    · rw [hm.lined]
      exact himmediate
    · rw [hm.lined, hm.collected]
      exact hdelayed
    · rw [hm.collected]
      exact hordered
  slot := hslot
  before := by
    rw [hm.collected, waiting, hm.dmsgq]
    exact h.before
  collected_le := by
    rw [hm.collected, hm.posted]
    exact h.collected_le
  stamped d hd := by
    rw [hm.dmsgq] at hd
    obtain ⟨time, htrigger, hstamp, hlt, hlate⟩ := h.stamped d hd
    refine ⟨time, htrigger, hstamp, ?_, fun keep msCurrent hphase => ?_⟩
    · have := hm.now_le
      omega
    · rcases hscan keep msCurrent hphase with rfl | hphase
      · exact hlt
      · exact hlate keep msCurrent hphase
  scan_le keep msCurrent hphase := by
    rcases hscan keep msCurrent hphase with rfl | hphase
    · exact hm.now_le
    · exact (h.scan_le keep msCurrent hphase).trans hm.now_le
  agrees := by
    rw [hm.dmsgq]
    exact h.agrees

theorem Inv.pullOne (h : s.Inv base) (hslot : s.queue.msgPeek = none)
    (keep : Bool) : (s.pullOne keep).Inv base := by
  unfold Run.pullOne MessageQueue.pull
  cases hmsgq : s.queue.msgq with
  | nil =>
    refine h.moves ⟨rfl, rfl, rfl, rfl, rfl, le_refl _⟩ (fun _ => hslot) ?_
    intro _ _ hphase
    cases hphase
  | cons m rest =>
    have hlined : s.lined = s.handled ++ m :: rest := by
      rw [lined, hslot, hmsgq, Option.toList_none, List.append_nil]
    dsimp only
    split_ifs
    · refine h.moves ⟨?_, rfl, rfl, rfl, rfl, le_refl _⟩ (fun _ => hslot) ?_
      · rw [hlined, lined, hslot]
        simp
      · intro _ _ hphase
        cases hphase
    · refine h.moves ⟨?_, rfl, rfl, rfl, rfl, le_refl _⟩
        (fun hne => absurd rfl hne) ?_
      · rw [hlined, lined]
        simp
      · intro _ _ hphase
        cases hphase
    · refine h.moves ⟨?_, rfl, rfl, rfl, rfl, le_refl _⟩
        (fun hne => absurd rfl hne) ?_
      · rw [hlined, lined, hslot]
        simp
      · intro _ _ hphase
        cases hphase

theorem kept_insert {l₁ l₂ : List (Message Posting)} {m : Message Posting}
    {n : ℕ}
    (h : ((l₁ ++ l₂).map fun m => m.pdata.serial).Perm (List.range n))
    (hm : m.pdata.serial = n) :
    ((l₁ ++ [m] ++ l₂).map fun m => m.pdata.serial).Perm
      (List.range (n + 1)) := by
  rw [List.append_assoc, List.singleton_append]
  refine (List.perm_middle.map _).trans ?_
  rw [List.map_cons, hm, List.range_succ]
  exact (h.cons n).trans (List.perm_append_singleton n _).symm

theorem Inv.post (h : s.Inv base) (phandler : Option ℕ) (id : BitVec 32) :
    Inv base
      { s with
        queue := s.queue.post phandler id ⟨s.posted, none⟩
        posted := s.posted + 1 } := by
  obtain ⟨hkept, hdue, himmediate, hdelayed, hordered⟩ := h.delivers
  have hlined : Run.lined
      { s with
        queue := s.queue.post phandler id ⟨s.posted, none⟩
        posted := s.posted + 1 } =
      s.lined ++ [⟨phandler, id, ⟨s.posted, none⟩⟩] :=
    (List.append_assoc ..).symm
  refine ⟨⟨?_, ?_, ?_, ?_, hordered⟩, h.slot, h.before,
    fun a ha => (h.collected_le a ha).trans (Nat.le_succ _), h.stamped,
    h.scan_le, h.agrees⟩
  · rw [List.append_assoc] at hkept
    rw [hlined, List.append_assoc]
    exact kept_insert hkept rfl
  · rw [hlined]
    intro m hm time htime
    rcases List.mem_append.mp hm with hm | hm
    · exact hdue m hm time htime
    · rw [List.mem_singleton.mp hm] at htime
      cases htime
  · rw [hlined, List.filter_append]
    refine List.pairwise_append.mpr ⟨himmediate, List.pairwise_singleton _ _,
      fun m hm n hn => ?_⟩
    rw [List.mem_singleton.mp hn]
    refine h.delivers.serial_lt ?_
    simp [(List.mem_filter.mp hm).1]
  · rw [hlined, List.filter_append]
    simpa using hdelayed

theorem Inv.delayPost (h : s.Inv base) {time : ℤ} {tstamp : BitVec 32}
    (hstamp : tstamp = reading base time) (hlt : time < s.now + HALF)
    (hcareful : s.CarefulDelay time tstamp) (phandler : Option ℕ)
    (id : BitVec 32) : (s.delayPost time tstamp phandler id).Inv base := by
  obtain ⟨hkept, hdue, himmediate, hdelayed, hordered⟩ := h.delivers
  have hwaiting : (s.delayPost time tstamp phandler id).waiting =
      s.waiting ++ [⟨phandler, id, ⟨s.posted, some time⟩⟩] :=
    List.map_append
  refine ⟨⟨?_, hdue, himmediate, hdelayed, hordered⟩, h.slot, ?_,
    fun a ha => (h.collected_le a ha).trans (Nat.le_succ _), ?_, h.scan_le, ?_⟩
  · rw [hwaiting, ← List.append_assoc]
    exact kept_insert hkept rfl
  · rw [hwaiting]
    intro a ha m hm
    rcases List.mem_append.mp hm with hm | hm
    · exact h.before a ha m hm
    · rw [List.mem_singleton.mp hm]
      exact Or.inr (h.collected_le a ha)
  · intro d hd
    rcases List.mem_append.mp hd with hd | hd
    · exact h.stamped d hd
    · rw [List.mem_singleton.mp hd]
      refine ⟨time, rfl, hstamp, hlt, fun keep msCurrent hphase => ?_⟩
      have hscan := hcareful.2
      rw [show s.phase = .scan keep msCurrent from hphase] at hscan
      exact hscan
  · refine List.pairwise_append.mpr ⟨h.agrees, List.pairwise_singleton _ _,
      fun d hd e he => ?_⟩
    rw [List.mem_singleton.mp he]
    obtain ⟨due, hdue, -⟩ := h.stamped d hd
    have hbefore := (hcareful.1 d hd due hdue).1
    have hserial : d.msg.pdata.serial < s.posted := by
      refine h.delivers.serial_lt ?_
      simp [waiting, List.mem_map_of_mem hd]
    have hkey : (⟨phandler, id, ⟨s.posted, some time⟩⟩ : Message Posting).key <
        d.msg.key ↔ time < due := by
      rw [Message.key, Message.key, Prod.Lex.toLex_lt_toLex, hdue]
      constructor
      · rintro (hlt | ⟨-, hlt⟩)
        · exact hlt
        · exact absurd hlt hserial.not_gt
      · exact Or.inl
    rw [Bool.eq_iff_iff, decide_eq_true_iff, hkey]
    exact hbefore

theorem map_filter_waiting (p : Message Posting → Bool) :
    (s.queue.dmsgq.filter fun d => p d.msg).map DelayedMessage.msg =
      s.waiting.filter p := by
  rw [waiting, List.filter_map]
  rfl

theorem toList_filter (p : Message Posting → Bool)
    (o : Option (Message Posting)) :
    (o.filter p).toList = o.toList.filter p := by
  cases o with
  | none => rfl
  | some m =>
    rw [Option.filter_some, Option.toList_some, List.filter_singleton]
    cases p m <;> rfl

theorem filter_perm (p : Message Posting → Bool)
    (l removed : List (Message Posting)) :
    ((l.filter fun m => !p m) ++ (removed ++ l.filter p)).Perm
      (l ++ removed) := by
  calc
    ((l.filter fun m => !p m) ++ (removed ++ l.filter p)).Perm
        ((removed ++ l.filter p) ++ l.filter fun m => !p m) :=
      List.perm_append_comm
    _ = removed ++ (l.filter p ++ l.filter fun m => !p m) :=
      List.append_assoc ..
    List.Perm _ (removed ++ l) := (List.filter_append_perm p l).append_left _
    List.Perm _ (l ++ removed) := List.perm_append_comm

theorem clears_of_step {phandler : Option ℕ} {id : BitVec 32}
    (hstep : s.step base (.clear phandler id) = some t) :
    s.Clears phandler id t := by
  cases hstep
  refine ⟨toList_filter .., rfl,
    map_filter_waiting fun m => !m.matchesFilter phandler id, rfl, ?_⟩
  change s.cleared ++ (_ ++ _ ++ _) = _
  rw [toList_filter, map_filter_waiting fun m => m.matchesFilter phandler id,
    List.filter_append, List.filter_append]

theorem Inv.clear (h : s.Inv base) {phandler : Option ℕ} {id : BitVec 32}
    (hstep : s.step base (.clear phandler id) = some t) : t.Inv base := by
  obtain ⟨hkept, hdue, himmediate, hdelayed, hordered⟩ := h.delivers
  obtain ⟨hpeek, hmsgq, hwaiting, hhandled, hcleared⟩ := clears_of_step hstep
  have hlined : t.lined.Sublist s.lined := by
    rw [lined, lined, hpeek, hmsgq, hhandled]
    exact ((List.Sublist.refl _).append List.filter_sublist).append
      List.filter_sublist
  have hsub : t.waiting.Sublist s.waiting := by
    rw [hwaiting]
    exact List.filter_sublist
  have hperm : (t.lined ++ t.waiting ++ t.cleared).Perm
      (s.lined ++ s.waiting ++ s.cleared) := by
    have hmoved := (filter_perm (fun m => m.matchesFilter phandler id)
      (s.queue.msgPeek.toList ++ s.queue.msgq ++ s.waiting)
      s.cleared).append_left s.handled
    rw [lined, lined, hpeek, hmsgq, hwaiting, hhandled, hcleared]
    simpa only [List.filter_append, List.append_assoc] using hmoved
  have hdmsgq : t.queue.dmsgq.Sublist s.queue.dmsgq := by
    cases hstep
    exact List.filter_sublist
  have hframe : t.phase = s.phase ∧ t.posted = s.posted ∧
      t.collected = s.collected ∧ t.now = s.now := by
    cases hstep
    exact ⟨rfl, rfl, rfl, rfl⟩
  obtain ⟨hphase, hposted, hcollected, hnow⟩ := hframe
  refine ⟨⟨?_, ?_, ?_, ?_, ?_⟩, ?_, ?_, ?_, ?_, ?_, ?_⟩
  · rw [hposted]
    exact (hperm.map _).trans hkept
  · rw [hnow]
    exact fun m hm => hdue m (hlined.subset hm)
  · exact himmediate.sublist (hlined.filter _)
  · rw [hcollected]
    exact (hlined.filter _).trans hdelayed
  · rw [hcollected]
    exact hordered
  · intro hne
    rw [hphase] at hne
    cases hstep
    change Option.filter _ s.queue.msgPeek = none
    rw [h.slot hne]
    rfl
  · rw [hcollected]
    exact fun a ha m hm => h.before a ha m (hsub.subset hm)
  · rw [hcollected, hposted]
    exact h.collected_le
  · rw [hnow, hphase]
    exact fun d hd => h.stamped d (hdmsgq.subset hd)
  · rw [hnow, hphase]
    exact h.scan_le
  · exact h.agrees.sublist hdmsgq

theorem Inv.collect (h : s.Inv base) {keep : Bool} {msCurrent : ℤ}
    (hphase : s.phase = .scan keep msCurrent) :
    (s.collect base msCurrent).Inv base := by
  obtain ⟨hkept, hdue, himmediate, hdelayed, hordered⟩ := h.delivers
  set triggered := s.queue.triggered (reading base msCurrent) with htriggered
  have hlined : (s.collect base msCurrent).lined =
      s.lined ++ triggered.1.map DelayedMessage.msg :=
    (List.append_assoc ..).symm
  have hperm : (triggered.1 ++ triggered.2).Perm s.queue.dmsgq :=
    PriorityQueue.popReady_perm ..
  have hleft : triggered.2.Sublist s.queue.dmsgq :=
    PriorityQueue.popReady_sublist ..
  have hmem : ∀ d ∈ triggered.1, d ∈ s.queue.dmsgq := fun d hd =>
    hperm.mem_iff.mp (List.mem_append_left _ hd)
  have htime : ∀ d ∈ triggered.1, ∀ time ∈ d.msg.pdata.trigger,
      time ≤ msCurrent := by
    intro d hd time htime
    obtain ⟨time', htrigger, hstamp, -, hlt⟩ := h.stamped d (hmem d hd)
    cases htrigger.symm.trans htime
    have hready := PriorityQueue.popReady_ready _ _ d hd
    rw [hstamp] at hready
    by_contra hnot
    rw [timeIsLater_reading base (by omega) (hlt keep msCurrent hphase)]
      at hready
    cases hready
  have hdelayedOnly : ∀ m ∈ triggered.1.map DelayedMessage.msg,
      m.pdata.trigger.isSome := by
    intro m hm
    obtain ⟨d, hd, rfl⟩ := List.mem_map.mp hm
    obtain ⟨time, htrigger, -⟩ := h.stamped d (hmem d hd)
    rw [htrigger]
    rfl
  have hcongr : triggered = PriorityQueue.popReady
      (fun d e => decide (e.msg.key < d.msg.key))
      (fun d => !timeIsLater (reading base msCurrent) d.msTrigger)
      s.queue.dmsgq.length s.queue.dmsgq :=
    PriorityQueue.popReady_congr _ h.agrees
  have hsorted := PriorityQueue.popReady_key_le
    (fun d : DelayedMessage Posting => d.msg.key)
    (fun d => !timeIsLater (reading base msCurrent) d.msTrigger)
    s.queue.dmsgq.length s.queue.dmsgq
  rw [← hcongr] at hsorted
  obtain ⟨hsorted, hfirst⟩ := hsorted
  refine ⟨⟨?_, ?_, ?_, ?_, ?_⟩, h.slot, ?_, ?_, ?_, h.scan_le, ?_⟩
  · rw [hlined]
    refine List.Perm.trans (List.Perm.map _ ?_) hkept
    refine List.Perm.append_right _ ?_
    rw [List.append_assoc]
    refine List.Perm.append_left _ ?_
    have hmap := hperm.map DelayedMessage.msg
    rwa [List.map_append] at hmap
  · rw [hlined]
    intro m hm time htrigger
    rcases List.mem_append.mp hm with hm | hm
    · exact hdue m hm time htrigger
    · obtain ⟨d, hd, rfl⟩ := List.mem_map.mp hm
      exact (htime d hd time htrigger).trans (h.scan_le keep msCurrent hphase)
  · have hnone : (triggered.1.map DelayedMessage.msg).filter
        (fun m => m.pdata.trigger.isNone) = [] := by
      refine List.filter_eq_nil_iff.mpr fun m hm => ?_
      rw [Option.isNone_iff_eq_none]
      exact Option.isSome_iff_ne_none.mp (hdelayedOnly m hm)
    rw [hlined, List.filter_append, hnone, List.append_nil]
    exact himmediate
  · rw [hlined, List.filter_append, List.filter_eq_self.mpr hdelayedOnly]
    change List.Sublist _ ((s.collected ++ _).map Prod.fst)
    rw [List.map_append, List.map_map]
    exact hdelayed.append (List.Sublist.refl _)
  · refine List.pairwise_append.mpr ⟨hordered, ?_, fun a ha b hb => ?_⟩
    · exact List.pairwise_map.mpr (hsorted.imp fun hle => Or.inl hle)
    · obtain ⟨d, hd, rfl⟩ := List.mem_map.mp hb
      exact h.before a ha d.msg (List.mem_map_of_mem (hmem d hd))
  · intro a ha m hm
    obtain ⟨e, he, rfl⟩ := List.mem_map.mp hm
    rcases List.mem_append.mp ha with ha | ha
    · exact h.before a ha e.msg (List.mem_map_of_mem (hleft.subset he))
    · obtain ⟨d, hd, rfl⟩ := List.mem_map.mp ha
      exact Or.inl (hfirst d hd e he)
  · intro a ha
    rcases List.mem_append.mp ha with ha | ha
    · exact h.collected_le a ha
    · obtain ⟨d, hd, rfl⟩ := List.mem_map.mp ha
      exact le_refl _
  · exact fun d hd => h.stamped d (hleft.subset hd)
  · exact h.agrees.sublist hleft

theorem Inv.step {e : Event} (h : s.Inv base) (hcareful : s.Careful base e)
    (hstep : s.step base e = some t) : t.Inv base := by
  cases e with
  | tick ms =>
    cases hstep
    refine h.moves ⟨rfl, rfl, rfl, rfl, rfl, ?_⟩ h.slot
      fun _ _ hphase => Or.inr hphase
    change s.now ≤ s.now + ms
    omega
  | post phandler id =>
    cases hstep
    exact h.post phandler id
  | postDelayed cmsDelay phandler id =>
    rw [Run.step] at hstep
    split_ifs at hstep with hlt
    cases hstep
    refine h.delayPost (timeAfter_reading ..) ?_ hcareful phandler id
    omega
  | postAt time phandler id =>
    rw [Run.step] at hstep
    split_ifs at hstep with hlt
    cases hstep
    exact h.delayPost rfl hlt.2 hcareful phandler id
  | clear phandler id => exact h.clear hstep
  | getMessage keep =>
    rw [Run.step] at hstep
    split at hstep
    · rename_i hphase hpeek
      cases hstep
      refine h.moves ⟨rfl, rfl, rfl, rfl, rfl, le_refl _⟩ (fun _ => hpeek) ?_
      intro _ _ hphase'
      cases hphase'
      exact Or.inl rfl
    · rename_i m hphase hpeek
      cases keep with
      | true =>
        cases hstep
        exact h
      | false =>
        cases hstep
        refine h.moves ⟨?_, rfl, rfl, rfl, rfl, le_refl _⟩ (fun _ => rfl)
          fun _ _ hphase' => Or.inr hphase'
        rw [lined, lined, hpeek]
        simp
    · cases hstep
  | scan =>
    rw [Run.step] at hstep
    split at hstep
    · rename_i keep msCurrent hphase
      cases hstep
      exact (h.collect hphase).pullOne
        (h.slot (by rw [hphase]; exact Phase.noConfusion)) keep
    · cases hstep
  | pull =>
    rw [Run.step] at hstep
    split at hstep
    · rename_i keep hphase
      cases hstep
      exact h.pullOne (h.slot (by rw [hphase]; exact Phase.noConfusion)) keep
    · cases hstep
  | wake =>
    rw [Run.step] at hstep
    split at hstep
    · rename_i keep hphase
      cases hstep
      refine h.moves ⟨rfl, rfl, rfl, rfl, rfl, le_refl _⟩
        (fun _ => h.slot (by rw [hphase]; exact Phase.noConfusion)) ?_
      intro _ _ hphase'
      cases hphase'
      exact Or.inl rfl
    · cases hstep
  | giveUp =>
    rw [Run.step] at hstep
    split at hstep
    · cases hstep
      refine h.moves ⟨rfl, rfl, rfl, rfl, rfl, le_refl _⟩
        (fun hne => absurd rfl hne) ?_
      intro _ _ hphase'
      cases hphase'
    · cases hstep

/-! ## Shifted clocks -/

variable (base) in
theorem reading_shift (base' : BitVec 32) (time : ℤ) :
    reading base' time = reading base time + (base' - base) := by
  rw [reading, reading, BitVec.add_comm base, BitVec.add_assoc,
    BitVec.add_comm base, BitVec.sub_add_cancel, BitVec.add_comm]

theorem timeIsLater_add (earlier later c : BitVec 32) :
    timeIsLater (earlier + c) (later + c) = timeIsLater earlier later := by
  have h : later + c - (earlier + c) = later - earlier := by
    bv_omega
  rw [timeIsLater, timeIsLater, h]

variable {base' : BitVec 32}

theorem Inv.triggered_shift (h : s.Inv base)
    (h' : (s.shift (base' - base)).Inv base') (msCurrent : ℤ) :
    (s.shift (base' - base)).queue.triggered (reading base' msCurrent) =
      ((s.queue.triggered (reading base msCurrent)).1.map
          (shiftStamp (base' - base)),
        (s.queue.triggered (reading base msCurrent)).2.map
          (shiftStamp (base' - base))) := by
  have hready : (fun d : DelayedMessage Posting => !timeIsLater
      (reading base' msCurrent) (shiftStamp (base' - base) d).msTrigger) =
        fun d => !timeIsLater (reading base msCurrent) d.msTrigger := by
    funext d
    rw [reading_shift base base', shiftStamp, timeIsLater_add]
  rw [MessageQueue.triggered, PriorityQueue.popReady_congr _ h'.agrees,
    MessageQueue.triggered, PriorityQueue.popReady_congr _ h.agrees]
  change PriorityQueue.popReady _ _
    (s.queue.dmsgq.map (shiftStamp (base' - base))).length
    (s.queue.dmsgq.map (shiftStamp (base' - base))) = _
  rw [PriorityQueue.popReady_map, List.length_map, hready]
  rfl

theorem shift_pullOne (s : Run) (c : BitVec 32) (keep : Bool) :
    (s.shift c).pullOne keep = (s.pullOne keep).shift c := by
  obtain ⟨⟨peek, msgq, dmsgq, num⟩, now, phase, posted, handled, cleared,
    collected⟩ := s
  cases msgq with
  | nil => rfl
  | cons m rest =>
    by_cases hdispose : m.messageId = MQID_DISPOSE
    · simp only [Run.pullOne, MessageQueue.pull, shift, if_pos hdispose]
    · cases keep <;>
        simp only [Run.pullOne, MessageQueue.pull, shift, if_neg hdispose,
          if_true, Bool.false_eq_true, if_false]

theorem Inv.collect_shift (h : s.Inv base)
    (h' : (s.shift (base' - base)).Inv base') (msCurrent : ℤ) :
    (s.shift (base' - base)).collect base' msCurrent =
      (s.collect base msCurrent).shift (base' - base) := by
  have htriggered := h.triggered_shift h' msCurrent
  rw [Run.collect, MessageQueue.collect, htriggered]
  simp only [List.map_map]
  rfl

theorem shift_delayPost (s : Run) {base : BitVec 32} (time : ℤ)
    (phandler : Option ℕ) (id : BitVec 32) :
    (s.shift (base' - base)).delayPost time (reading base' time) phandler id =
      (s.delayPost time (reading base time) phandler id).shift
        (base' - base) := by
  rw [reading_shift base base']
  simp only [delayPost, MessageQueue.doDelayPost, shift, List.map_append,
    List.map_singleton, shiftStamp]

theorem Inv.step_shift {e : Event} (h : s.Inv base)
    (h' : (s.shift (base' - base)).Inv base') :
    (s.shift (base' - base)).step base' e =
      (s.step base e).map fun t => t.shift (base' - base) := by
  cases e with
  | tick ms => rfl
  | post phandler id => rfl
  | postDelayed cmsDelay phandler id =>
    rw [Run.step, Run.step, timeAfter_reading, timeAfter_reading]
    split_ifs
    · exact congrArg some (shift_delayPost s _ phandler id)
    · rfl
  | postAt time phandler id =>
    rw [Run.step, Run.step]
    change (if s.now - HALF ≤ time ∧ time < s.now + HALF then _ else _) = _
    split_ifs
    · exact congrArg some (shift_delayPost s time phandler id)
    · rfl
  | clear phandler id =>
    have hfilter (p : Message Posting → Bool) :
        ((s.queue.dmsgq.map (shiftStamp (base' - base))).filter
          fun d => p d.msg) =
        (s.queue.dmsgq.filter fun d => p d.msg).map
          (shiftStamp (base' - base)) :=
      List.filter_map
    simp only [Run.step, MessageQueue.clear, shift, Option.map_some,
      hfilter fun m => !m.matchesFilter phandler id,
      hfilter fun m => m.matchesFilter phandler id, List.map_map]
    rfl
  | getMessage keep =>
    obtain ⟨⟨peek, msgq, dmsgq, num⟩, now, phase, posted, handled, cleared,
      collected⟩ := s
    cases phase <;> cases peek <;> cases keep <;> rfl
  | scan =>
    rw [Run.step, Run.step]
    cases hphase : s.phase with
    | scan keep msCurrent =>
      rw [show (s.shift (base' - base)).phase = .scan keep msCurrent from
        hphase]
      dsimp only
      rw [h.collect_shift h', shift_pullOne]
      rfl
    | _ =>
      rw [show (s.shift (base' - base)).phase = _ from hphase]
      rfl
  | pull =>
    rw [Run.step, Run.step]
    cases hphase : s.phase with
    | pull keep =>
      rw [show (s.shift (base' - base)).phase = .pull keep from hphase]
      dsimp only
      rw [shift_pullOne]
      rfl
    | _ =>
      rw [show (s.shift (base' - base)).phase = _ from hphase]
      rfl
  | wake =>
    obtain ⟨queue, now, phase, posted, handled, cleared, collected⟩ := s
    cases phase <;> rfl
  | giveUp =>
    obtain ⟨queue, now, phase, posted, handled, cleared, collected⟩ := s
    cases phase <;> rfl

theorem execute_shift {base : BitVec 32} {es : List Event} {s t : Run}
    (h : s.Inv base) (h' : (s.shift (base' - base)).Inv base')
    (hrun : execute (Run.step base) s es = some t)
    (hok : Allowed (Run.step base) (Run.Careful base) s es)
    (hok' : Allowed (Run.step base') (Run.Careful base')
      (s.shift (base' - base)) es) :
    execute (Run.step base') (s.shift (base' - base)) es =
      some (t.shift (base' - base)) := by
  induction es generalizing s with
  | nil =>
    cases hrun
    rfl
  | cons e es ih =>
    obtain ⟨u, hu, hrest⟩ := execute_cons hrun
    have hu' : (s.shift (base' - base)).step base' e =
        some (u.shift (base' - base)) := by
      rw [h.step_shift h', hu]
      rfl
    rw [execute, hu']
    exact ih (h.step hok.1 hu) (h'.step hok'.1 hu') hrest (hok.2 u hu)
      (hok'.2 _ hu')

/-- In careful runs messages are delivered as they should be, and runs that
differ in the first clock reading only are the same up to time stamps. -/
theorem delivers_of_careful (base : BitVec 32) (es : List Event) (s : Run)
    (hrun : execute (Run.step base) Run.new es = some s)
    (hok : Allowed (Run.step base) (Run.Careful base) Run.new es) :
    s.Delivers ∧
      (∀ phandler id t, s.step base (.clear phandler id) = some t →
        s.Clears phandler id t) ∧
      ∀ base', Allowed (Run.step base') (Run.Careful base') Run.new es →
        execute (Run.step base') Run.new es =
          some (s.shift (base' - base)) := by
  have hreach : ReachableVia (Eq Run.new) (Run.step base)
      (Run.Careful base) s :=
    ReachableVia.execute_of_allowed (.init rfl) hrun hok
  have h : s.Inv base := hreach.invariant
    (fun _ hinit => hinit ▸ inv_new)
    fun _ _ _ h hcareful hstep => h.step hcareful hstep
  exact ⟨h.delivers, fun _ _ _ hstep => clears_of_step hstep,
    fun base' hok' => execute_shift inv_new inv_new hrun hok hok'⟩

instance (s : Run) (time : ℤ) (tstamp : BitVec 32) :
    Decidable (s.CarefulDelay time tstamp) :=
  have : Decidable (match s.phase with
      | .scan _ msCurrent => time < msCurrent + HALF
      | _ => True) :=
    match s.phase with
    | .scan _ msCurrent =>
      inferInstanceAs (Decidable (time < msCurrent + HALF))
    | .idle => inferInstanceAs (Decidable True)
    | .pull _ => inferInstanceAs (Decidable True)
    | .wait _ => inferInstanceAs (Decidable True)
  inferInstanceAs (Decidable (_ ∧ _))

instance (base : BitVec 32) (s : Run) (e : Event) :
    Decidable (s.Careful base e) :=
  match e with
  | .postDelayed .. => inferInstanceAs (Decidable (CarefulDelay ..))
  | .postAt .. => inferInstanceAs (Decidable (CarefulDelay ..))
  | .tick _ => inferInstanceAs (Decidable True)
  | .post .. => inferInstanceAs (Decidable True)
  | .clear .. => inferInstanceAs (Decidable True)
  | .getMessage _ => inferInstanceAs (Decidable True)
  | .scan => inferInstanceAs (Decidable True)
  | .pull => inferInstanceAs (Decidable True)
  | .wake => inferInstanceAs (Decidable True)
  | .giveUp => inferInstanceAs (Decidable True)

/-- A message with the longer delay is posted first, and a message is gotten
when both have been triggered. -/
def twoDelays : List Event :=
  [.postDelayed 30 (some 1) 0, .postDelayed 5 (some 2) 0, .tick 40,
    .getMessage false, .scan]

theorem delivers_of_careful_twoDelays :
    ∃ s, execute (Run.step 0) Run.new twoDelays = some s ∧ s.Delivers ∧
      s.handled.map (fun m => m.pdata.serial) = [1] := by
  have hrun : ∃ s, execute (Run.step 0) Run.new twoDelays = some s ∧
      s.handled.map (fun m => m.pdata.serial) = [1] := ⟨_, rfl, rfl⟩
  obtain ⟨s, hrun, hhandled⟩ := hrun
  exact ⟨s, hrun, (delivers_of_careful 0 twoDelays s hrun (by decide)).1,
    hhandled⟩

/-- The time stamp of the longer delay wraps around, and is taken for the
smaller one. -/
theorem not_delivers_twoDelays :
    ∃ s, execute (Run.step 0xFFFFFFEC) Run.new twoDelays = some s ∧
      ¬ s.Delivers ∧
      s.handled.map (fun m => m.pdata.serial) = [0] ∧
      ∃ t, execute (Run.step 0) Run.new twoDelays = some t ∧
        t.handled.map (fun m => m.pdata.serial) ≠
          s.handled.map (fun m => m.pdata.serial) := by
  have hrun : ∃ s, execute (Run.step 0xFFFFFFEC) Run.new twoDelays = some s ∧
      s.handled.map (fun m => m.pdata.serial) = [0] ∧
      ¬ s.collected.Pairwise fun a b =>
        a.1.key ≤ b.1.key ∨ a.2 ≤ b.1.pdata.serial := ⟨_, rfl, rfl, by decide⟩
  obtain ⟨s, hrun, hhandled, hordered⟩ := hrun
  refine ⟨s, hrun, fun h => hordered h.ordered, hhandled, _, rfl, ?_⟩
  rw [hhandled]
  decide

end Run

end WebrtcWinXp.Messages
