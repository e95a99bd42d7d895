import WebrtcWinXp.Support.Transition
import Mathlib.Data.Finset.Sort

/-!
# Stream resets

The streams of an `SctpDataMediaChannel` of `sctpdataengine.cc`.  A stream that
is closed waits in a queue, is named in one reset request at a time, and is
gone when the peer resets it too.  The answers of usrsctp come from outside,
and what the channel does is kept in a log, the last event first.
-/

namespace WebrtcWinXp.DataChannel

open Support

/-- What others see of the channel.  A request is kept with the sets in which
it was issued. -/
inductive StreamEvent where
  | opened (sid : ℕ)
  | removed (sid : ℕ)
  | closedRemotely (sid : ℕ)
  | requested (queued sent : Finset ℕ) (streams : List ℕ) (ret : ℤ)

def StreamEvent.sid : StreamEvent → Option ℕ
  | opened sid => some sid
  | removed sid => some sid
  | closedRemotely sid => some sid
  | requested .. => none

def StreamEvent.ret : StreamEvent → Option ℤ
  | requested _ _ _ ret => some ret
  | _ => none

structure SctpDataMediaChannel where
  openStreams : Finset ℕ
  queuedResetStreams : Finset ℕ
  sentResetStreams : Finset ℕ
  log : List StreamEvent

/-- `sctp_stream_reset_event`, with the two flags that are looked at. -/
structure StreamResetEvent where
  failed : Bool
  incomingSsn : Bool
  streamList : List ℕ

/-- The calls, with what usrsctp would answer to a request. -/
inductive StreamCall where
  | addSendStream (ssrcs : List ℕ)
  | removeSendStream (ssrc : ℕ) (ret : ℤ)
  | onStreamResetEvent (evt : StreamResetEvent) (ret : ℤ)

namespace SctpDataMediaChannel

def new : SctpDataMediaChannel := ⟨∅, ∅, ∅, []⟩

variable (ch : SctpDataMediaChannel)

def addStream : List ℕ → Bool × SctpDataMediaChannel
  | [] => (false, ch)
  | ssrc :: _ =>
    if ssrc ∈ ch.openStreams then (false, ch)
    else if ssrc ∈ ch.queuedResetStreams ∨ ssrc ∈ ch.sentResetStreams then
      (false, ch)
    else
      (true,
        { ch with
          openStreams := insert ssrc ch.openStreams
          log := .opened ssrc :: ch.log })

/-- The number of streams, and each of them, is sent with 16 bits. -/
def resetStreamList : List ℕ :=
  (ch.queuedResetStreams.sort (· ≤ ·)).map (· % 2 ^ 16)

/-- `usrsctp_setsockopt` is called. -/
def request (ret : ℤ) : SctpDataMediaChannel :=
  { ch with
    log := .requested ch.queuedResetStreams ch.sentResetStreams
      ch.resetStreamList ret :: ch.log }

/-- `SendQueuedStreamResets`.  The checked cast of the number of streams ends
the program when they are too many. -/
def sendQueuedStreamResets (ret : ℤ) : Option SctpDataMediaChannel :=
  if ch.sentResetStreams ≠ ∅ ∨ ch.queuedResetStreams = ∅ then some ch
  else if 2 ^ 16 ≤ ch.queuedResetStreams.card then none
  else if ret < 0 then some (ch.request ret)
  else
    some
      { ch.request ret with
        queuedResetStreams := ch.sentResetStreams
        sentResetStreams := ch.queuedResetStreams }

def queueReset (ssrc : ℕ) : SctpDataMediaChannel :=
  { ch with
    openStreams := ch.openStreams.erase ssrc
    queuedResetStreams := insert ssrc ch.queuedResetStreams
    log := .removed ssrc :: ch.log }

def resetStream (ssrc : ℕ) (ret : ℤ) : Option SctpDataMediaChannel :=
  if ssrc ∈ ch.openStreams then (ch.queueReset ssrc).sendQueuedStreamResets ret
  else some ch

def requeue : SctpDataMediaChannel :=
  { ch with
    queuedResetStreams := ch.queuedResetStreams ∪ ch.sentResetStreams
    sentResetStreams := ∅ }

def onIncomingReset (streamId : ℕ) : SctpDataMediaChannel :=
  if streamId ∈ ch.sentResetStreams then
    { ch with sentResetStreams := ch.sentResetStreams.erase streamId }
  else if streamId ∈ ch.openStreams then
    { ch with
      openStreams := ch.openStreams.erase streamId
      log := .closedRemotely streamId :: ch.log }
  else if streamId ∈ ch.queuedResetStreams then
    { ch with queuedResetStreams := ch.queuedResetStreams.erase streamId }
  else ch

def handleReset (evt : StreamResetEvent) : SctpDataMediaChannel :=
  if evt.failed then ch.requeue
  else if evt.incomingSsn then evt.streamList.foldl onIncomingReset ch
  else ch

def onStreamResetEvent (evt : StreamResetEvent) (ret : ℤ) :
    Option SctpDataMediaChannel :=
  (ch.handleReset evt).sendQueuedStreamResets ret

def step : StreamCall → Option SctpDataMediaChannel
  | .addSendStream ssrcs => some (ch.addStream ssrcs).2
  | .removeSendStream ssrc ret => ch.resetStream ssrc ret
  | .onStreamResetEvent evt ret => ch.onStreamResetEvent evt ret

def closing : Finset ℕ := ch.queuedResetStreams ∪ ch.sentResetStreams

/-- What happened to one stream, the last event first. -/
def history (sid : ℕ) : List StreamEvent :=
  ch.log.filter fun e => e.sid = some sid

def lastRet : Option ℤ := ch.log.findSome? StreamEvent.ret

end SctpDataMediaChannel

/-! ## Moves -/

/-- The streams that are added fit the 16 bits of a request. -/
def StreamCall.Small : StreamCall → Prop
  | addSendStream ssrcs => ∀ ssrc ∈ ssrcs, ssrc < 2 ^ 16
  | _ => True

def StreamCall.Resets (sid : ℕ) : StreamCall → Prop
  | onStreamResetEvent evt _ =>
    evt.failed = false ∧ evt.incomingSsn = true ∧ sid ∈ evt.streamList
  | _ => False

namespace SctpDataMediaChannel

/-- What a call does, piece by piece. -/
inductive Move (ch : SctpDataMediaChannel) : SctpDataMediaChannel → Prop where
  | add {ssrc : ℕ} (hsmall : ssrc < 2 ^ 16) (hopen : ssrc ∉ ch.openStreams)
      (hqueued : ssrc ∉ ch.queuedResetStreams)
      (hsent : ssrc ∉ ch.sentResetStreams) :
      Move ch
        { ch with
          openStreams := insert ssrc ch.openStreams
          log := .opened ssrc :: ch.log }
  | queueReset {ssrc : ℕ} (hopen : ssrc ∈ ch.openStreams) :
      Move ch (ch.queueReset ssrc)
  | requeue : Move ch ch.requeue
  | onIncomingReset (streamId : ℕ) : Move ch (ch.onIncomingReset streamId)
  | request (ret : ℤ) (hsent : ch.sentResetStreams = ∅) :
      Move ch (ch.request ret)
  | swap (hsent : ch.sentResetStreams = ∅) :
      Move ch
        { ch with
          queuedResetStreams := ch.sentResetStreams
          sentResetStreams := ch.queuedResetStreams }

abbrev Moves : SctpDataMediaChannel → SctpDataMediaChannel → Prop :=
  Relation.ReflTransGen Move

variable {ch ch' : SctpDataMediaChannel} {ret : ℤ}

theorem sendQueuedStreamResets_cases
    (h : ch.sendQueuedStreamResets ret = some ch') :
    ch' = ch ∧ (ch.sentResetStreams ≠ ∅ ∨ ch.queuedResetStreams = ∅) ∨
      ch.sentResetStreams = ∅ ∧ ret < 0 ∧ ch' = ch.request ret ∨
      ch.sentResetStreams = ∅ ∧
        ch' =
          { ch.request ret with
            queuedResetStreams := ch.sentResetStreams
            sentResetStreams := ch.queuedResetStreams } := by
  rw [sendQueuedStreamResets] at h
  by_cases hidle : ch.sentResetStreams ≠ ∅ ∨ ch.queuedResetStreams = ∅
  · rw [if_pos hidle, Option.some.injEq] at h
    exact .inl ⟨h.symm, hidle⟩
  · have hsent : ch.sentResetStreams = ∅ := not_not.mp fun h => hidle (.inl h)
    rw [if_neg hidle] at h
    by_cases hcard : 2 ^ 16 ≤ ch.queuedResetStreams.card
    · rw [if_pos hcard] at h
      cases h
    · rw [if_neg hcard] at h
      by_cases hret : ret < 0
      · rw [if_pos hret, Option.some.injEq] at h
        exact .inr (.inl ⟨hsent, hret, h.symm⟩)
      · rw [if_neg hret, Option.some.injEq] at h
        exact .inr (.inr ⟨hsent, h.symm⟩)

theorem moves_sendQueuedStreamResets
    (h : ch.sendQueuedStreamResets ret = some ch') : Moves ch ch' := by
  obtain ⟨rfl, -⟩ | ⟨hsent, -, rfl⟩ | ⟨hsent, rfl⟩ :=
    sendQueuedStreamResets_cases h
  · exact .refl
  · exact .single (.request ret hsent)
  · exact .tail (.single (.request ret hsent)) (.swap hsent)

theorem moves_foldl_onIncomingReset (streams : List ℕ) :
    Moves ch (streams.foldl onIncomingReset ch) := by
  induction streams generalizing ch with
  | nil => exact .refl
  | cons streamId streams ih => exact .head (.onIncomingReset streamId) ih

theorem moves_handleReset (evt : StreamResetEvent) :
    Moves ch (ch.handleReset evt) := by
  rw [handleReset]
  by_cases hfailed : evt.failed = true
  · rw [if_pos hfailed]
    exact .single .requeue
  · rw [if_neg hfailed]
    by_cases hincoming : evt.incomingSsn = true
    · rw [if_pos hincoming]
      exact moves_foldl_onIncomingReset evt.streamList
    · rw [if_neg hincoming]

theorem addStream_cons (ssrc : ℕ) (ssrcs : List ℕ) :
    (ch.addStream (ssrc :: ssrcs)).1 = true ↔
      ssrc ∉ ch.openStreams ∧ ssrc ∉ ch.queuedResetStreams ∧
        ssrc ∉ ch.sentResetStreams := by
  rw [addStream]
  by_cases hopen : ssrc ∈ ch.openStreams
  · simp [hopen]
  · by_cases hclosing : ssrc ∈ ch.queuedResetStreams ∨
        ssrc ∈ ch.sentResetStreams
    · rw [if_neg hopen, if_pos hclosing, ← not_or]
      simp [hclosing]
    · rw [if_neg hopen, if_neg hclosing, ← not_or]
      simp [hopen, hclosing]

/-- A stream is opened, or nothing changes. -/
theorem addStream_cases (ch : SctpDataMediaChannel) (ssrcs : List ℕ) :
    (ch.addStream ssrcs).2 = ch ∨
      ∃ ssrc ∈ ssrcs, ssrc ∉ ch.openStreams ∧ ssrc ∉ ch.queuedResetStreams ∧
        ssrc ∉ ch.sentResetStreams ∧
        (ch.addStream ssrcs).2 =
          { ch with
            openStreams := insert ssrc ch.openStreams
            log := .opened ssrc :: ch.log } := by
  cases ssrcs with
  | nil => exact .inl rfl
  | cons ssrc ssrcs =>
    rw [addStream]
    by_cases hopen : ssrc ∈ ch.openStreams
    · rw [if_pos hopen]
      exact .inl rfl
    · rw [if_neg hopen]
      by_cases hclosing : ssrc ∈ ch.queuedResetStreams ∨
          ssrc ∈ ch.sentResetStreams
      · rw [if_pos hclosing]
        exact .inl rfl
      · rw [if_neg hclosing]
        rw [not_or] at hclosing
        exact .inr ⟨ssrc, List.mem_cons_self, hopen, hclosing.1,
          hclosing.2, rfl⟩

theorem moves_addStream {ssrcs : List ℕ} (h : ∀ ssrc ∈ ssrcs, ssrc < 2 ^ 16) :
    Moves ch (ch.addStream ssrcs).2 := by
  obtain heq | ⟨ssrc, hssrc, hopen, hqueued, hsent, heq⟩ :=
    ch.addStream_cases ssrcs
  · rw [heq]
  · rw [heq]
    exact .single (.add (h ssrc hssrc) hopen hqueued hsent)

theorem moves_step {call : StreamCall} (hsmall : call.Small)
    (h : ch.step call = some ch') : Moves ch ch' := by
  cases call with
  | addSendStream ssrcs =>
    obtain rfl := Option.some.inj h
    exact moves_addStream hsmall
  | removeSendStream ssrc ret =>
    rw [step, resetStream] at h
    by_cases hopen : ssrc ∈ ch.openStreams
    · rw [if_pos hopen] at h
      exact .head (.queueReset hopen) (moves_sendQueuedStreamResets h)
    · rw [if_neg hopen, Option.some.injEq] at h
      exact h ▸ .refl
  | onStreamResetEvent evt ret =>
    exact (moves_handleReset evt).trans (moves_sendQueuedStreamResets h)

/-- No stream is in two sets, and all of them fit 16 bits. -/
structure Sound (ch : SctpDataMediaChannel) : Prop where
  openQueued : Disjoint ch.openStreams ch.queuedResetStreams
  openSent : Disjoint ch.openStreams ch.sentResetStreams
  queuedSent : Disjoint ch.queuedResetStreams ch.sentResetStreams
  small : ∀ sid, sid ∈ ch.openStreams ∨ sid ∈ ch.queuedResetStreams ∨
    sid ∈ ch.sentResetStreams → sid < 2 ^ 16

theorem Sound.onIncomingReset (h : ch.Sound) (streamId : ℕ) :
    (ch.onIncomingReset streamId).Sound := by
  obtain ⟨hopenQueued, hopenSent, hqueuedSent, hsmall⟩ := h
  rw [SctpDataMediaChannel.onIncomingReset]
  by_cases hsent : streamId ∈ ch.sentResetStreams
  · rw [if_pos hsent]
    exact ⟨hopenQueued, hopenSent.mono_right (Finset.erase_subset ..),
      hqueuedSent.mono_right (Finset.erase_subset ..), by grind⟩
  · rw [if_neg hsent]
    by_cases hopen : streamId ∈ ch.openStreams
    · rw [if_pos hopen]
      exact ⟨hopenQueued.mono_left (Finset.erase_subset ..),
        hopenSent.mono_left (Finset.erase_subset ..), hqueuedSent,
        by grind⟩
    · rw [if_neg hopen]
      by_cases hqueued : streamId ∈ ch.queuedResetStreams
      · rw [if_pos hqueued]
        exact ⟨hopenQueued.mono_right (Finset.erase_subset ..), hopenSent,
          hqueuedSent.mono_left (Finset.erase_subset ..), by grind⟩
      · rw [if_neg hqueued]
        exact ⟨hopenQueued, hopenSent, hqueuedSent, hsmall⟩

theorem Sound.move (h : ch.Sound) (hmove : Move ch ch') : ch'.Sound := by
  cases hmove with
  | add hsmall hopen hqueued hsent =>
    obtain ⟨hopenQueued, hopenSent, hqueuedSent, hsids⟩ := h
    exact ⟨Finset.disjoint_insert_left.mpr ⟨hqueued, hopenQueued⟩,
      Finset.disjoint_insert_left.mpr ⟨hsent, hopenSent⟩, hqueuedSent,
      by grind⟩
  | queueReset hopen =>
    obtain ⟨hopenQueued, hopenSent, hqueuedSent, hsids⟩ := h
    rw [queueReset]
    refine ⟨?_, ?_, ?_, by grind⟩
    · exact Finset.disjoint_insert_right.mpr
        ⟨Finset.notMem_erase _ _,
          hopenQueued.mono_left (Finset.erase_subset ..)⟩
    · exact hopenSent.mono_left (Finset.erase_subset ..)
    · exact Finset.disjoint_insert_left.mpr
        ⟨Finset.disjoint_left.mp hopenSent hopen, hqueuedSent⟩
  | requeue =>
    obtain ⟨hopenQueued, hopenSent, -, hsids⟩ := h
    exact ⟨Finset.disjoint_union_right.mpr ⟨hopenQueued, hopenSent⟩,
      Finset.disjoint_empty_right _, Finset.disjoint_empty_right _,
      by grind [requeue]⟩
  | onIncomingReset streamId => exact h.onIncomingReset streamId
  | request ret hsent => exact ⟨h.1, h.2, h.3, h.4⟩
  | swap hsent =>
    obtain ⟨hopenQueued, hopenSent, hqueuedSent, hsids⟩ := h
    exact ⟨hopenSent, hopenQueued, hqueuedSent.symm, by grind⟩

/-- A request names all queued streams, and no other one waits for an answer. -/
def Asks (ch : SctpDataMediaChannel) : Prop :=
  ∀ queued sent streams ret, .requested queued sent streams ret ∈ ch.log →
    sent = ∅ ∧ streams = queued.sort (· ≤ ·)

theorem resetStreamList_eq (h : ch.Sound) :
    ch.resetStreamList = ch.queuedResetStreams.sort (· ≤ ·) := by
  rw [resetStreamList]
  refine (List.map_congr_left fun sid hsid => ?_).trans (List.map_id _)
  rw [Finset.mem_sort] at hsid
  exact Nat.mod_eq_of_lt (h.small sid (.inr (.inl hsid)))

theorem onIncomingReset_cases (ch : SctpDataMediaChannel) (streamId : ℕ) :
    (ch.onIncomingReset streamId).log = ch.log ∧
        (ch.onIncomingReset streamId).openStreams = ch.openStreams ∨
      streamId ∈ ch.openStreams ∧
        (ch.onIncomingReset streamId).log =
          .closedRemotely streamId :: ch.log ∧
        (ch.onIncomingReset streamId).openStreams =
          ch.openStreams.erase streamId := by
  rw [SctpDataMediaChannel.onIncomingReset]
  by_cases hsent : streamId ∈ ch.sentResetStreams
  · rw [if_pos hsent]
    exact .inl ⟨rfl, rfl⟩
  · rw [if_neg hsent]
    by_cases hopen : streamId ∈ ch.openStreams
    · rw [if_pos hopen]
      exact .inr ⟨hopen, rfl, rfl⟩
    · rw [if_neg hopen, apply_ite SctpDataMediaChannel.log,
        apply_ite SctpDataMediaChannel.openStreams, ite_self, ite_self]
      exact .inl ⟨rfl, rfl⟩

theorem Asks.cons {e : StreamEvent} (h : ch.Asks) (hlog : ch'.log = e :: ch.log)
    (he : e.ret = none) : ch'.Asks := by
  intro queued sent streams ret hmem
  rw [hlog] at hmem
  obtain rfl | hmem := List.mem_cons.mp hmem
  · cases he
  · exact h _ _ _ _ hmem

theorem Asks.move (h : ch.Asks) (hsound : ch.Sound) (hmove : Move ch ch') :
    ch'.Asks := by
  cases hmove with
  | add => exact h.cons rfl rfl
  | queueReset => exact h.cons rfl rfl
  | requeue => exact h
  | onIncomingReset streamId =>
    obtain ⟨hlog, -⟩ | ⟨-, hlog, -⟩ := ch.onIncomingReset_cases streamId
    · rw [Asks, hlog]
      exact h
    · exact h.cons hlog rfl
  | request ret hsent =>
    intro queued sent streams ret hmem
    obtain heq | hmem := List.mem_cons.mp hmem
    · cases heq
      exact ⟨hsent, resetStreamList_eq hsound⟩
    · exact h _ _ _ _ hmem
  | swap => exact h

/-! ## The life of a stream -/

/-- A stream is open from its opening until something else happens to it, and
only an open stream is closed by the peer. -/
structure Lived (sid : ℕ) (ch : SctpDataMediaChannel) : Prop where
  open_iff : sid ∈ ch.openStreams ↔
    (ch.history sid).head? = some (.opened sid)
  closes : ∀ later earlier,
    ch.history sid = later ++ .closedRemotely sid :: earlier →
      earlier.head? = some (.opened sid)

section

variable {sid : ℕ} {e : StreamEvent}

theorem history_cons (hlog : ch'.log = e :: ch.log) :
    ch'.history sid =
      if e.sid = some sid then e :: ch.history sid else ch.history sid := by
  rw [history, hlog, List.filter_cons]
  simp only [decide_eq_true_eq]
  rfl

theorem Lived.of_log_eq (h : Lived sid ch) (hlog : ch'.log = ch.log)
    (hopen : ch'.openStreams = ch.openStreams) : Lived sid ch' := by
  have hhistory : ch'.history sid = ch.history sid := by
    rw [history, hlog, history]
  refine ⟨?_, ?_⟩
  · rw [hopen, hhistory]
    exact h.open_iff
  · rw [hhistory]
    exact h.closes

theorem Lived.of_other (h : Lived sid ch) (hlog : ch'.log = e :: ch.log)
    (he : e.sid ≠ some sid)
    (hopen : sid ∈ ch'.openStreams ↔ sid ∈ ch.openStreams) : Lived sid ch' := by
  have hhistory : ch'.history sid = ch.history sid := by
    rw [history_cons hlog, if_neg he]
  refine ⟨?_, ?_⟩
  · rw [hopen, hhistory]
    exact h.open_iff
  · rw [hhistory]
    exact h.closes

/-- An event of the stream itself. -/
theorem Lived.of_own (h : Lived sid ch) (hlog : ch'.log = e :: ch.log)
    (he : e.sid = some sid)
    (hopen : sid ∈ ch'.openStreams ↔ e = .opened sid)
    (hclosed : e = .closedRemotely sid → sid ∈ ch.openStreams) :
    Lived sid ch' := by
  have hhistory : ch'.history sid = e :: ch.history sid := by
    rw [history_cons hlog, if_pos he]
  refine ⟨?_, fun later earlier heq => ?_⟩
  · rw [hopen, hhistory, List.head?_cons, Option.some.injEq]
  · rw [hhistory] at heq
    obtain ⟨-, hfirst⟩ | ⟨later, -, hrest⟩ := List.cons_eq_append_iff.mp heq
    · obtain ⟨hclose, rfl⟩ := List.cons_eq_cons.mp hfirst
      exact h.open_iff.mp (hclosed hclose.symm)
    · exact h.closes later earlier hrest

theorem Lived.move (h : Lived sid ch) (hmove : Move ch ch') :
    Lived sid ch' := by
  cases hmove with
  | @add ssrc _ _ _ _ =>
    by_cases heq : ssrc = sid
    · subst heq
      exact h.of_own rfl rfl (by simp) nofun
    · refine h.of_other rfl (fun he => heq (Option.some.inj he)) ?_
      simp [Ne.symm heq]
  | @queueReset ssrc hopen =>
    by_cases heq : ssrc = sid
    · subst heq
      exact h.of_own rfl rfl (by simp [queueReset]) nofun
    · refine h.of_other rfl (fun he => heq (Option.some.inj he)) ?_
      simp [queueReset, Ne.symm heq]
  | requeue => exact h.of_log_eq rfl rfl
  | onIncomingReset streamId =>
    obtain ⟨hlog, hsame⟩ | ⟨hopen, hlog, herase⟩ :=
      ch.onIncomingReset_cases streamId
    · exact h.of_log_eq hlog hsame
    · by_cases heq : streamId = sid
      · subst heq
        exact h.of_own hlog rfl (by simp [herase]) fun _ => hopen
      · refine h.of_other hlog (fun he => heq (Option.some.inj he)) ?_
        simp [herase, Ne.symm heq]
  | request ret _ => exact h.of_other rfl nofun Iff.rfl
  | swap => exact h.of_log_eq rfl rfl

end

/-- A reset waits for the answer to another one, or for the next try. -/
def Waits (ch : SctpDataMediaChannel) : Prop :=
  ch.queuedResetStreams ≠ ∅ →
    ch.sentResetStreams ≠ ∅ ∨ ∃ ret ∈ ch.lastRet, ret < 0

theorem waits_sendQueuedStreamResets
    (h : ch.sendQueuedStreamResets ret = some ch') : ch'.Waits := by
  obtain ⟨rfl, hidle⟩ | ⟨-, hret, rfl⟩ | ⟨hsent, rfl⟩ :=
    sendQueuedStreamResets_cases h
  · exact fun hqueued => .inl (hidle.resolve_right hqueued)
  · exact fun _ => .inr ⟨ret, rfl, hret⟩
  · exact fun hqueued => absurd hsent hqueued

theorem Waits.addStream (h : ch.Waits) (ssrcs : List ℕ) :
    (ch.addStream ssrcs).2.Waits := by
  obtain heq | ⟨_, -, -, -, -, heq⟩ := ch.addStream_cases ssrcs
  · rw [heq]
    exact h
  · rw [heq]
    exact h

theorem Waits.step (h : ch.Waits) {call : StreamCall}
    (hstep : ch.step call = some ch') : ch'.Waits := by
  cases call with
  | addSendStream ssrcs =>
    obtain rfl := Option.some.inj hstep
    exact h.addStream ssrcs
  | removeSendStream ssrc ret =>
    rw [SctpDataMediaChannel.step, resetStream] at hstep
    by_cases hopen : ssrc ∈ ch.openStreams
    · rw [if_pos hopen] at hstep
      exact waits_sendQueuedStreamResets hstep
    · rw [if_neg hopen, Option.some.injEq] at hstep
      exact hstep ▸ h
  | onStreamResetEvent evt ret => exact waits_sendQueuedStreamResets hstep

theorem closing_sendQueuedStreamResets
    (h : ch.sendQueuedStreamResets ret = some ch') :
    ch'.closing = ch.closing := by
  obtain ⟨rfl, -⟩ | ⟨-, -, rfl⟩ | ⟨-, rfl⟩ := sendQueuedStreamResets_cases h
  · rfl
  · rfl
  · exact Finset.union_comm _ _

theorem closing_onIncomingReset (streamId : ℕ) :
    ch.closing.erase streamId ⊆ (ch.onIncomingReset streamId).closing := by
  rw [onIncomingReset]
  grind [closing]

theorem closing_foldl_onIncomingReset {sid : ℕ} {streams : List ℕ}
    (hsid : sid ∈ ch.closing) (h : sid ∉ streams) :
    sid ∈ (streams.foldl onIncomingReset ch).closing := by
  induction streams generalizing ch with
  | nil => exact hsid
  | cons streamId streams ih =>
    rw [List.mem_cons, not_or] at h
    exact ih (closing_onIncomingReset streamId
      (Finset.mem_erase.mpr ⟨h.1, hsid⟩)) h.2

theorem resets_of_leaves {call : StreamCall} {sid : ℕ}
    (hstep : ch.step call = some ch') (hsid : sid ∈ ch.closing)
    (hleaves : sid ∉ ch'.closing) : call.Resets sid := by
  cases call with
  | addSendStream ssrcs =>
    obtain rfl := Option.some.inj hstep
    obtain heq | ⟨_, -, -, -, -, heq⟩ := ch.addStream_cases ssrcs
    · rw [heq] at hleaves
      exact absurd hsid hleaves
    · rw [heq] at hleaves
      exact absurd hsid hleaves
  | removeSendStream ssrc ret =>
    refine absurd ?_ hleaves
    rw [step, resetStream] at hstep
    by_cases hopen : ssrc ∈ ch.openStreams
    · rw [if_pos hopen] at hstep
      rw [closing_sendQueuedStreamResets hstep]
      exact Finset.union_subset_union_left (Finset.subset_insert ..) hsid
    · rw [if_neg hopen, Option.some.injEq] at hstep
      exact hstep ▸ hsid
  | onStreamResetEvent evt ret =>
    rw [closing_sendQueuedStreamResets hstep, handleReset] at hleaves
    by_cases hfailed : evt.failed = true
    · rw [if_pos hfailed, closing, requeue, Finset.union_empty] at hleaves
      exact absurd hsid hleaves
    · rw [if_neg hfailed] at hleaves
      by_cases hincoming : evt.incomingSsn = true
      · rw [if_pos hincoming] at hleaves
        rw [Bool.not_eq_true] at hfailed
        exact ⟨hfailed, hincoming, not_not.mp fun hnot =>
          hleaves (closing_foldl_onIncomingReset hsid hnot)⟩
      · rw [if_neg hincoming] at hleaves
        exact absurd hsid hleaves

/-- What holds of a channel after any calls. -/
structure Orderly (ch : SctpDataMediaChannel) : Prop where
  openQueued : Disjoint ch.openStreams ch.queuedResetStreams
  openSent : Disjoint ch.openStreams ch.sentResetStreams
  queuedSent : Disjoint ch.queuedResetStreams ch.sentResetStreams
  adds : ∀ ssrc ssrcs, (ch.addStream (ssrc :: ssrcs)).1 = true ↔
    ssrc ∉ ch.openStreams ∧ ssrc ∉ ch.queuedResetStreams ∧
      ssrc ∉ ch.sentResetStreams
  asks : ch.Asks
  waits : ch.Waits
  lived : ∀ sid, Lived sid ch
  leaves : ∀ call ch' sid, ch.step call = some ch' → sid ∈ ch.closing →
    sid ∉ ch'.closing → call.Resets sid

theorem lived_new (sid : ℕ) : Lived sid new :=
  ⟨by simp [new, history], fun _ _ h => by simp [new, history] at h⟩

theorem sound_new : new.Sound :=
  ⟨Finset.disjoint_empty_left _, Finset.disjoint_empty_left _,
    Finset.disjoint_empty_left _, by simp [new]⟩

/-- What every move keeps. -/
structure Kept (ch : SctpDataMediaChannel) : Prop where
  sound : ch.Sound
  asks : ch.Asks
  lived : ∀ sid, Lived sid ch

theorem Kept.moves (h : ch.Kept) (hmoves : Moves ch ch') : ch'.Kept := by
  induction hmoves with
  | refl => exact h
  | tail _ hmove ih =>
    exact ⟨ih.sound.move hmove, ih.asks.move ih.sound hmove,
      fun sid => (ih.lived sid).move hmove⟩

/-- In every run with any answers and events the channel stays orderly. -/
theorem orderly_of_reachable
    (h : ReachableVia (· = new) step (fun _ call => call.Small) ch) :
    ch.Orderly := by
  have hkept : ch.Kept := by
    refine h.invariant ?_ ?_
    · rintro _ rfl
      exact ⟨sound_new, nofun, lived_new⟩
    · intro ch call ch' hkept hsmall hstep
      exact hkept.moves (moves_step hsmall hstep)
  have hwaits : ch.Waits := by
    refine h.invariant ?_ ?_
    · rintro _ rfl
      exact fun hqueued => absurd rfl hqueued
    · intro ch call ch' hwaits _ hstep
      exact hwaits.step hstep
  exact ⟨hkept.sound.openQueued, hkept.sound.openSent, hkept.sound.queuedSent,
    fun ssrc ssrcs => addStream_cons ssrc ssrcs, hkept.asks, hwaits,
    hkept.lived, fun _ _ _ hstep hsid hleaves =>
      resets_of_leaves hstep hsid hleaves⟩

/-- A stream is opened, and closed when the first request fails. -/
theorem orderly_after_close :
    Orderly
      ⟨∅, {3}, ∅, [.requested {3} ∅ [3] (-1), .removed 3, .opened 3]⟩ := by
  have hopened : new.step (.addSendStream [3]) =
      some ⟨{3}, ∅, ∅, [.opened 3]⟩ := rfl
  have hremoved :
      step ⟨{3}, ∅, ∅, [.opened 3]⟩ (.removeSendStream 3 (-1)) =
        some ⟨∅, {3}, ∅,
          [.requested {3} ∅ [3] (-1), .removed 3, .opened 3]⟩ := by
    simp [step, resetStream, queueReset, sendQueuedStreamResets, request,
      resetStreamList]
  have hsmall : StreamCall.Small (.removeSendStream 3 (-1)) := trivial
  exact orderly_of_reachable
    (.step (.step (.init rfl) (by simp [StreamCall.Small]) hopened) hsmall
      hremoved)

end SctpDataMediaChannel

end WebrtcWinXp.DataChannel
