import WebrtcWinXp.Support.Transition

/-!
# Waiting for the message thread

The sending thread of `P2PThreadFile::Run` and the message thread as two
processes that share the flags of the task and the event `m_threadEvent`.

`SetEvent` raises its flag and waits on the condition variable without testing
anything; `ResetEvent` lowers the flag and notifies.  Both hold the mutex.
-/

namespace WebrtcWinXp.FileTransfer

open Support

/-- The three calls of `SetEvent` in `Run`. -/
inductive Wait where
  | afterFailedSend
  | forReply
  | whileSkipped
  deriving DecidableEq

/-- Where `Run` is.  Before `entering` a wait, what led to it has been
decided. -/
inductive SenderPc where
  | sendCreateFile
  | entering (w : Wait)
  | blocked (w : Wait)
  | woken (w : Wait)
  | checkReciever
  | testForceQuit
  | extractData
  | sendBlock
  | testSkipFlag
  | released
  deriving DecidableEq

namespace SenderPc

/-- A notified or spuriously woken thread leaves the wait. -/
def wake : SenderPc → SenderPc
  | .blocked w => .woken w
  | pc => pc

/-- The thread is in `wait`. -/
def IsBlocked (pc : SenderPc) : Prop := ∃ w, pc = .blocked w

/-- The thread is going to wait, whatever the flags are by then. -/
def WillWait (pc : SenderPc) : Prop :=
  pc = .sendCreateFile ∨ (∃ w, pc = .entering w) ∨
    pc = .blocked .afterFailedSend ∨ pc = .woken .afterFailedSend

/-- The thread may test the skip flag before it tests the quit flag. -/
def BeforeSkipTest (pc : SenderPc) : Prop :=
  pc = .extractData ∨ pc = .sendBlock ∨ pc = .testSkipFlag

end SenderPc

/-- The messages that concern a sending task. -/
inductive TaskMessage where
  | accept (guidValid : Bool)
  | restart
  | interrupt
  | cancle
  deriving DecidableEq

/-- Where the message thread is in a handler: an accept stores the receiver's
description, then it resumes the task as a restart does. -/
inductive HandlerPc where
  | idle
  | setRecieveResDes (guidValid : Bool)
  | clearSkipFlag
  | resetEvent
  deriving DecidableEq

/-- A task that is being sent.  The last message is the latest one whose
handling has begun. -/
structure SendTask where
  pc : SenderPc
  handler : HandlerPc
  recieverValid : Bool
  forceQuitFlag : Bool
  skipFlag : Bool
  eventFlag : Bool
  last : Option TaskMessage
  deriving DecidableEq

namespace SendTask

def new : SendTask :=
  ⟨.sendCreateFile, .idle, false, false, false, false, none⟩

/-- A step of the sending thread.  `ok` is what `SendData` returns, or
whether `ExtractData` finds another block. -/
def senderStep (ok : Bool) (s : SendTask) : Option SendTask :=
  match s.pc with
  | .sendCreateFile =>
    some { s with
      pc := .entering (if ok then .forReply else .afterFailedSend) }
  | .entering w => some { s with pc := .blocked w, eventFlag := true }
  | .blocked _ => none
  | .woken .afterFailedSend => some { s with pc := .entering .forReply }
  | .woken .forReply => some { s with pc := .checkReciever }
  | .woken .whileSkipped => some { s with pc := .testForceQuit }
  | .checkReciever =>
    some { s with
      pc := if s.recieverValid then .testForceQuit else .released }
  | .testForceQuit =>
    some { s with
      pc := if s.forceQuitFlag then .released else .extractData }
  | .extractData =>
    some { s with pc := if ok then .sendBlock else .released }
  | .sendBlock =>
    some { s with pc := if ok then .testSkipFlag else .released }
  | .testSkipFlag =>
    some { s with
      pc :=
        if s.skipFlag then .entering .whileSkipped else .testForceQuit }
  | .released => none

/-- The message thread takes a message; `Suspend` and `ForceQuit` are a
single assignment. -/
def deliver (msg : TaskMessage) (s : SendTask) : Option SendTask :=
  if s.handler = .idle then
    match msg with
    | .accept guidValid =>
      some { s with
        handler := .setRecieveResDes guidValid
        last := some msg }
    | .restart => some { s with handler := .clearSkipFlag, last := some msg }
    | .interrupt => some { s with skipFlag := true, last := some msg }
    | .cancle => some { s with forceQuitFlag := true, last := some msg }
  else none

/-- The next step of a handler that has begun: `SetRecieveResDes`, then the
two statements of `Resume`. -/
def handlerStep (s : SendTask) : Option SendTask :=
  match s.handler with
  | .idle => none
  | .setRecieveResDes guidValid =>
    some { s with recieverValid := guidValid, handler := .clearSkipFlag }
  | .clearSkipFlag =>
    some { s with skipFlag := false, handler := .resetEvent }
  | .resetEvent =>
    some { s with
      pc := SenderPc.wake s.pc
      eventFlag := false
      handler := .idle }

inductive Event where
  | sender (ok : Bool)
  | spuriousWakeup
  | deliver (msg : TaskMessage)
  | handler
  deriving DecidableEq

def step (s : SendTask) : Event → Option SendTask
  | .sender ok => s.senderStep ok
  | .spuriousWakeup =>
    if SenderPc.wake s.pc = s.pc then none
    else some { s with pc := SenderPc.wake s.pc }
  | .deliver msg => s.deliver msg
  | .handler => s.handlerStep

/-- The last message should let the thread run, and its handler is done. -/
def Released (s : SendTask) : Prop :=
  s.handler = .idle ∧
    ∃ msg, s.last = some msg ∧ msg ≠ .interrupt

def NoLostWakeup (s : SendTask) : Prop := ¬(s.pc.IsBlocked ∧ s.Released)

/-- An event notifies when the thread waits or runs, but not in between; a
task is cancelled only while its thread is going to test the quit flag
without waiting first. -/
def Timely (s : SendTask) : Event → Prop
  | .handler => s.handler = .resetEvent → ¬s.pc.WillWait
  | .deliver .cancle =>
    ¬s.pc.IsBlocked ∧ ¬s.pc.WillWait ∧
      (s.pc.BeforeSkipTest → s.skipFlag = false)
  | _ => True

/-- After a message that lets the thread run, nothing makes it wait. -/
structure Running (s : SendTask) : Prop where
  notBlocked : ¬s.pc.IsBlocked
  notWaiting : ¬s.pc.WillWait
  notSkipped : s.pc.BeforeSkipTest → s.skipFlag = false
  quits : s.skipFlag = true → s.forceQuitFlag = true

/-- What holds in runs of timely events. -/
structure Orderly (s : SendTask) : Prop where
  cleared : s.handler = .resetEvent → s.skipFlag = false
  running : s.Released → s.Running

variable {s t : SendTask}

theorem Running.moveTo (h : s.Running) {pc : SenderPc}
    (hblocked : ¬pc.IsBlocked) (hwait : ¬pc.WillWait)
    (hskip : pc.BeforeSkipTest → s.skipFlag = false) :
    Running { s with pc := pc } :=
  ⟨hblocked, hwait, hskip, h.quits⟩

theorem Running.released (h : s.Running) :
    Running { s with pc := .released } :=
  h.moveTo (by simp [SenderPc.IsBlocked]) (by simp [SenderPc.WillWait])
    (by simp [SenderPc.BeforeSkipTest])

theorem Running.testForceQuit (h : s.Running) :
    Running { s with pc := .testForceQuit } :=
  h.moveTo (by simp [SenderPc.IsBlocked]) (by simp [SenderPc.WillWait])
    (by simp [SenderPc.BeforeSkipTest])

theorem Running.sender (h : s.Running) {ok : Bool}
    (hstep : s.senderStep ok = some t) : t.Running := by
  cases hpc : s.pc with
  | sendCreateFile => exact absurd (Or.inl hpc) h.notWaiting
  | entering w => exact absurd (Or.inr (Or.inl ⟨w, hpc⟩)) h.notWaiting
  | blocked w => exact absurd ⟨w, hpc⟩ h.notBlocked
  | woken w =>
    cases w with
    | afterFailedSend =>
      exact absurd (Or.inr (Or.inr (Or.inr hpc))) h.notWaiting
    | forReply =>
      simp only [senderStep, hpc, Option.some.injEq] at hstep
      subst hstep
      exact h.moveTo (by simp [SenderPc.IsBlocked])
        (by simp [SenderPc.WillWait]) (by simp [SenderPc.BeforeSkipTest])
    | whileSkipped =>
      simp only [senderStep, hpc, Option.some.injEq] at hstep
      subst hstep
      exact h.testForceQuit
  | checkReciever =>
    simp only [senderStep, hpc, Option.some.injEq] at hstep
    subst hstep
    split
    · exact h.testForceQuit
    · exact h.released
  | testForceQuit =>
    simp only [senderStep, hpc, Option.some.injEq] at hstep
    subst hstep
    by_cases hquit : s.forceQuitFlag = true
    · rw [if_pos hquit]
      exact h.released
    · rw [if_neg hquit]
      refine h.moveTo (by simp [SenderPc.IsBlocked])
        (by simp [SenderPc.WillWait]) fun _ => ?_
      exact Bool.eq_false_iff.mpr fun hskip => hquit (h.quits hskip)
  | extractData =>
    have hskip : s.skipFlag = false := h.notSkipped (.inl hpc)
    simp only [senderStep, hpc, Option.some.injEq] at hstep
    subst hstep
    split
    · exact h.moveTo (by simp [SenderPc.IsBlocked])
        (by simp [SenderPc.WillWait]) fun _ => hskip
    · exact h.released
  | sendBlock =>
    have hskip : s.skipFlag = false := h.notSkipped (.inr (.inl hpc))
    simp only [senderStep, hpc, Option.some.injEq] at hstep
    subst hstep
    split
    · exact h.moveTo (by simp [SenderPc.IsBlocked])
        (by simp [SenderPc.WillWait]) fun _ => hskip
    · exact h.released
  | testSkipFlag =>
    have hskip : s.skipFlag = false := h.notSkipped (.inr (.inr hpc))
    simp only [senderStep, hpc, Option.some.injEq] at hstep
    subst hstep
    rw [if_neg (Bool.eq_false_iff.mp hskip)]
    exact h.testForceQuit
  | released => simp [senderStep, hpc] at hstep

theorem running_resetEvent (hwait : ¬s.pc.WillWait)
    (hskip : s.skipFlag = false) :
    Running { s with
      pc := SenderPc.wake s.pc, eventFlag := false, handler := .idle } := by
  refine ⟨?_, ?_, fun _ => hskip, ?_⟩
  · rintro ⟨w, hw⟩
    cases hpc : s.pc <;> simp [SenderPc.wake, hpc] at hw
  · intro h
    refine hwait ?_
    cases hpc : s.pc <;>
      simp_all [SenderPc.wake, SenderPc.WillWait]
  · intro h
    exact absurd (hskip.symm.trans h) (by decide)

/-! ### Runs of timely events -/

theorem orderly_new : Orderly new where
  cleared := by
    intro h
    cases h
  running := by
    rintro ⟨-, msg, h, -⟩
    cases h

theorem senderStep_frame {ok : Bool} (hstep : s.senderStep ok = some t) :
    t.handler = s.handler ∧ t.skipFlag = s.skipFlag ∧ t.last = s.last := by
  cases hpc : s.pc with
  | woken w => cases w <;> simp_all [senderStep] <;> subst hstep <;> simp
  | _ => simp_all [senderStep] <;> subst hstep <;> simp

theorem Orderly.sender (h : s.Orderly) {ok : Bool}
    (hstep : s.senderStep ok = some t) : t.Orderly := by
  obtain ⟨hhandler, hskip, hlast⟩ := senderStep_frame hstep
  refine ⟨?_, ?_⟩
  · rw [hhandler, hskip]
    exact h.cleared
  · rw [Released, hhandler, hlast]
    intro hreleased
    exact (h.running hreleased).sender hstep

theorem Orderly.wakeup (h : s.Orderly) :
    Orderly { s with pc := SenderPc.wake s.pc } := by
  refine ⟨h.cleared, fun hreleased => ?_⟩
  have hrunning := h.running hreleased
  have hpc : SenderPc.wake s.pc = s.pc := by
    cases hpc : s.pc with
    | blocked w => exact absurd ⟨w, hpc⟩ hrunning.notBlocked
    | _ => rfl
  rw [hpc]
  exact hrunning

theorem Orderly.deliver (h : s.Orderly) {msg : TaskMessage}
    (htimely : s.Timely (.deliver msg)) (hstep : s.deliver msg = some t) :
    t.Orderly := by
  simp only [SendTask.deliver] at hstep
  split at hstep
  · rename_i hidle
    cases msg with
    | accept guidValid =>
      cases hstep
      exact ⟨nofun, fun hreleased => by cases hreleased.1⟩
    | restart =>
      cases hstep
      exact ⟨nofun, fun hreleased => by cases hreleased.1⟩
    | interrupt =>
      cases hstep
      refine ⟨fun hreset => ?_, ?_⟩
      · rw [hidle] at hreset
        cases hreset
      · rintro ⟨-, msg, hlast, hmsg⟩
        exact absurd (Option.some.inj hlast).symm hmsg
    | cancle =>
      cases hstep
      obtain ⟨hblocked, hwait, hskip⟩ := htimely
      exact ⟨h.cleared, fun _ => ⟨hblocked, hwait, hskip, fun _ => rfl⟩⟩
  · cases hstep

theorem Orderly.handler (h : s.Orderly) (htimely : s.Timely .handler)
    (hstep : s.handlerStep = some t) : t.Orderly := by
  cases hhandler : s.handler with
  | idle => simp [handlerStep, hhandler] at hstep
  | setRecieveResDes guidValid =>
    simp only [handlerStep, hhandler, Option.some.injEq] at hstep
    subst hstep
    exact ⟨nofun, fun hreleased => by cases hreleased.1⟩
  | clearSkipFlag =>
    simp only [handlerStep, hhandler, Option.some.injEq] at hstep
    subst hstep
    exact ⟨fun _ => rfl, fun hreleased => by cases hreleased.1⟩
  | resetEvent =>
    simp only [handlerStep, hhandler, Option.some.injEq] at hstep
    subst hstep
    exact ⟨nofun, fun _ =>
      running_resetEvent (htimely hhandler) (h.cleared hhandler)⟩

theorem Orderly.step (h : s.Orderly) {e : Event} (htimely : s.Timely e)
    (hstep : s.step e = some t) : t.Orderly := by
  cases e with
  | sender ok => exact h.sender hstep
  | spuriousWakeup =>
    simp only [SendTask.step] at hstep
    split at hstep
    · cases hstep
    · cases hstep
      exact h.wakeup
  | deliver msg => exact h.deliver htimely hstep
  | handler => exact h.handler htimely hstep

/-- In every run of timely events no wake-up is lost. -/
theorem noLostWakeup_of_timely_run
    (h : ReachableVia (· = new) step Timely s) : NoLostWakeup s := by
  have horderly : s.Orderly := by
    refine h.invariant ?_ ?_
    · rintro s rfl
      exact orderly_new
    · intro s e t hs htimely hstep
      exact hs.step htimely hstep
  rintro ⟨hblocked, hreleased⟩
  exact (horderly.running hreleased).notBlocked hblocked

/-- The receiver accepts while the sender waits for its reply. -/
theorem noLostWakeup_accepted :
    NoLostWakeup ((execute step new
      [.sender true, .sender true, .deliver (.accept true), .handler,
        .handler, .handler]).getD new) := by
  refine noLostWakeup_of_timely_run (.step (.step (.step (.step (.step (.step
    (.init rfl)
    (e := .sender true) ?_ rfl)
    (e := .sender true) ?_ rfl)
    (e := .deliver (.accept true)) ?_ rfl)
    (e := .handler) ?_ rfl)
    (e := .handler) ?_ rfl)
    (e := .handler) ?_ rfl)
  all_goals simp [Timely, SenderPc.WillWait]

/-- The accept is handled before the sender enters its wait for it. -/
theorem not_forall_noLostWakeup :
    ¬∀ s, Reachable (· = new) step s → NoLostWakeup s := by
  intro h
  have hreach : ∀ s, execute step new
      [.sender true, .deliver (.accept true), .handler, .handler, .handler,
        .sender true] = some s → Reachable (· = new) step s :=
    fun s hs => reachable_of_execute rfl hs
  refine h _ (hreach _ rfl) ⟨⟨.forReply, rfl⟩, rfl, .accept true, rfl, ?_⟩
  decide

end SendTask

end WebrtcWinXp.FileTransfer
