import Mathlib
import WebrtcWinXp.FileTransfer.Books

/-!
# Agreement on the outcome of a file task

The books are read off two endpoints, every step of the endpoints is shown to
be a move of the books, and what balanced books say about completions is
carried back.
-/

namespace WebrtcWinXp.FileTransfer

open Support

/-- A thread that waits for the answer to its announcement, or is going
to. -/
def SenderPc.AwaitsReply (pc : SenderPc) : Prop :=
  pc = .entering .afterFailedSend ∨ pc = .blocked .afterFailedSend ∨
    pc = .woken .afterFailedSend ∨ pc = .entering .forReply ∨
    pc = .blocked .forReply

namespace Endpoint

/-- A task waits for the other side: its thread does, or it was accepted or
ended and no outcome was reported. -/
def Waits (e : Endpoint) (t : TaskId) : Prop :=
  (∃ run ∈ e.runs, run.task = some t ∧ run.pc.AwaitsReply) ∨
    (some t ∈ e.ended ∨ some t ∈ e.accepted) ∧
      ∀ state, (some t, state) ∉ e.completed

/-- A task was refused, cancelled or completed here. -/
def Settled (e : Endpoint) (t : TaskId) : Prop :=
  some t ∈ e.refused ∨ some t ∈ e.cancelled ∨
    ∃ state, (some t, state) ∈ e.completed

end Endpoint

namespace Link

/-- Each side completes a task at most once, the sender succeeds only if the
checksum matched, and nobody waits for a side that has settled the task when
no message is on the way. -/
structure Agrees (s : Link) : Prop where
  once : ∀ x t,
    ((s.endpoint x).completed.map Prod.fst).count (some t) ≤ 1
  matched : ∀ t,
    (some t, .FILE_TRANSFER_SUCESS) ∈ (s.endpoint t.side).completed →
      some t ∈ (s.endpoint t.side.other).matched
  quiescent : (∀ x, s.channel x = []) → ∀ x t,
    (s.endpoint x).Settled t → ¬(s.endpoint x.other).Waits t

/-- A file is sent under a guid that is not registered, announced to a side
that has a receiving task for it, and neither refused nor cancelled; and the
blocks and the results are sent. -/
def Agreeable (s : Link) : Event → Prop
  | .sendFile x filename => (s.endpoint x).threadMap.find filename = none
  | .cancleFileTask _ _ _ | .refuseFile _ _ _ _ => False
  | .acceptFile x guid _ _ _ =>
    (s.endpoint x).taskTypeOf guid = some .RECIEVE_TASK
  | .run x i ok _ =>
    ∀ run, (s.endpoint x).runs[i]? = some run → run.pc = .sendBlock →
      ok = true
  | .deliver x _ _ sent =>
    ∀ msg rest, s.channel x = msg :: rest →
      (msg.messageType = .Create_File →
        (s.endpoint x).taskTypeOf msg.sUserResGuid =
          some .RECIEVE_TASK) ∧
      (msg.messageType = .End_Send_File → sent = true)
  | _ => True

def entered (msg : Message) : Bool :=
  msg.IsEnd ∨ msg.IsResult ∨ msg.IsCancel

def book (e : Endpoint) (incoming : List Message) : Book where
  running := e.runs.map Run.task
  allocated := e.allocated
  ended := e.ended
  refused := e.refused
  cancelled := e.cancelled
  matched := e.matched
  completed := e.completed
  incoming := incoming.filter entered

def books (s : Link) (x : Side) : Book :=
  book (s.endpoint x) (s.channel x)

variable {s t : Link} {x : Side}

theorem balanced_new : Balanced (books new) := by
  intro x
  refine ⟨?_, ?_, ?_, ?_, ?_, ⟨rfl, rfl⟩, ?_, ?_, ?_, ?_, ?_⟩ <;>
    simp [books, book, new, Endpoint.new, Book.ends, Book.results,
      Book.reports]

/-- A change of an endpoint that enters nothing. -/
def Unentered (f : Endpoint → Endpoint) : Prop :=
  ∀ e incoming, book (f e) incoming = book e incoming

theorem books_modify {f : Endpoint → Endpoint} (hf : Unentered f) :
    books (s.modify x f) = books s := by
  funext y
  by_cases hy : y = x
  · subst hy
    simp [books, modify, hf (s.endpoint y)]
  · simp [books, modify, hy]

variable {sent : Bool} {msg : Message}

theorem books_sendData
    (hmsg : entered msg = false) : books (s.sendData x sent msg) = books s := by
  funext y
  cases sent with
  | false => rfl
  | true =>
    by_cases hy : y = x.other
    · subst hy
      simp [books, sendData, book, hmsg]
    · simp [books, sendData, hy]

theorem unentered_modifyThread (guid : Str) (f : Thread → Thread) :
    Unentered (Endpoint.modifyThread guid f) := by
  intro e incoming
  simp only [Endpoint.modifyThread]
  split <;> rfl

theorem unentered_unAttach (guid : Str) :
    Unentered (Endpoint.unAttach guid) :=
  unentered_modifyThread guid _

theorem unentered_suspendChildThread (guid : Str) :
    Unentered (Endpoint.suspendChildThread guid) :=
  unentered_modifyThread guid _

theorem unentered_resumeChildThread (guid : Str) :
    Unentered (Endpoint.resumeChildThread guid) := by
  intro e incoming
  simp only [Endpoint.resumeChildThread]
  split
  · rfl
  · rename_i thread _
    have htask : (e.runs.map fun run =>
        if run.address = thread.address then { run with pc := run.pc.wake }
        else run).map Run.task = e.runs.map Run.task := by
      rw [List.map_map]
      apply List.map_congr_left
      intro run _
      simp only [Function.comp_apply]
      split <;> rfl
    have hmodify := unentered_modifyThread guid
      (fun thread => { thread with skipFlag := false }) e incoming
    simp only [book, Book.mk.injEq] at hmodify ⊢
    exact ⟨htask, hmodify.2⟩

variable {i : ℕ} {run : Run}

theorem books_setRun {run' : Run}
    (hrun : (s.endpoint x).runs[i]? = some run) (htask : run'.task = run.task) :
    books (s.setRun x i run') = books s := by
  obtain ⟨hi, hrun⟩ := List.getElem?_eq_some_iff.mp hrun
  have hset : ((s.endpoint x).runs.set i run').map Run.task =
      (s.endpoint x).runs.map Run.task := by
    rw [List.map_set, htask, ← hrun]
    apply List.ext_getElem
    · simp
    · intro j h₁ h₂
      by_cases hj : i = j
      · subst hj
        simp
      · simp [hj]
  funext y
  by_cases hy : y = x
  · subst hy
    simp [books, setRun, modify, book, hset]
  · simp [books, setRun, modify, hy]

theorem move_sendFile {filename : Str}
    (h : (s.endpoint x).threadMap.find filename = none) :
    Move (books s) (books (s.sendFile x filename)) := by
  refine .start x ?_ ?_
  · simp [books, sendFile, modify, book, Book.start,
      StdMap.insert_of_find_eq_none h]
  · simp [books, sendFile, modify]

theorem move_createRecieveFile {guid : Str} :
    Move (books s) (books (s.createRecieveFile x guid)) := by
  simp only [createRecieveFile]
  split
  · exact .none rfl
  · refine .allocate x ?_ ?_
    · simp [books, modify, book, Book.allocate]
    · simp [books, modify]

theorem books_acceptFile {guid message : Str} {task : Option TaskId}
    {opened : Bool}
    (h : (s.endpoint x).taskTypeOf guid = some .RECIEVE_TASK) :
    books (s.acceptFile x guid message task opened sent) = books s := by
  simp only [acceptFile, if_pos h]
  rw [books_sendData rfl]
  refine books_modify fun e incoming => ?_
  exact unentered_modifyThread guid
    (fun thread => { thread with task := task }) e incoming

theorem move_release {thread : Thread}
    {md5 : Str} (hrun : (s.endpoint x).runs[i]? = some run) :
    Move (books s) (books (s.release x i run thread sent md5)) := by
  let msg : Message :=
    ⟨.End_Send_File, run.guid, thread.recieverGuid, md5, run.task⟩
  have hentered : entered msg = true := rfl
  refine .finish x i run.task (if sent then [msg] else []) ?_ ?_ ?_ ?_
  · simp [books, book, hrun]
  · cases sent with
    | false => exact Or.inl rfl
    | true => exact Or.inr ⟨msg, rfl, rfl, rfl⟩
  · cases sent <;>
      simp [books, book, release, modify, sendData, Book.finish,
        List.eraseIdx_map]
  · cases sent with
    | false =>
      simp [books, book, release, modify, sendData, Book.send]
    | true =>
      simp [books, book, release, modify, sendData, Book.send,
        show entered ⟨.End_Send_File, run.guid, thread.recieverGuid, md5,
          run.task⟩ = true from rfl, msg]

theorem move_runThread {thread : Thread} {ok : Bool}
    {md5 : Str} (hrun : (s.endpoint x).runs[i]? = some run)
    (hok : run.pc = .sendBlock → ok = true)
    (hstep : s.runThread x i run thread ok md5 = some t) :
    Move (books s) (books t) := by
  have hgoto (pc : SenderPc) :
      books (s.setRun x i { run with pc := pc }) = books s :=
    books_setRun hrun rfl
  cases hpc : run.pc with
  | sendCreateFile =>
    simp only [runThread, hpc] at hstep
    split at hstep
    · cases hstep
      exact .none (hgoto _)
    · cases hstep
      refine .none ?_
      rw [books_sendData rfl]
      exact hgoto _
  | entering w =>
    simp only [runThread, hpc, Option.some.injEq] at hstep
    subst hstep
    exact .none (hgoto _)
  | blocked w => simp [runThread, hpc] at hstep
  | woken w =>
    cases w <;>
      (simp only [runThread, hpc, Option.some.injEq] at hstep
       subst hstep
       exact .none (hgoto _))
  | sendBlock =>
    have hok := hok hpc
    subst hok
    simp only [runThread, hpc, if_true, Option.some.injEq] at hstep
    subst hstep
    refine .none ?_
    rw [books_sendData rfl]
    exact hgoto _
  | checkReciever | testForceQuit | extractData | testSkipFlag =>
    simp only [runThread, hpc, Option.some.injEq] at hstep
    subst hstep
    exact .none (hgoto _)
  | released =>
    simp only [runThread, hpc, Option.some.injEq] at hstep
    subst hstep
    exact move_release hrun

/-! ### Messages -/

theorem books_modify_self (f : Endpoint → Endpoint) :
    books (s.modify x f) x = book (f (s.endpoint x)) (s.channel x) := by
  simp [books, modify]

theorem books_modify_other (f : Endpoint → Endpoint) :
    books (s.modify x f) x.other = books s x.other := by
  simp [books, modify]

theorem books_sendData_self (msg : Message) :
    books (s.sendData x true msg) x = books s x := by
  simp [books, sendData]

theorem books_sendData_other (hmsg : entered msg = true) :
    books (s.sendData x true msg) x.other = (books s x.other).send [msg] := by
  simp [books, sendData, book, Book.send, hmsg]

def take (x : Side) (rest : List Message) (s : Link) : Link :=
  { s with channel := Function.update s.channel x rest }

variable {rest : List Message}

theorem books_take
    (hchannel : s.channel x = msg :: rest) (hmsg : entered msg = false) :
    books (s.take x rest) = books s := by
  funext y
  by_cases hy : y = x
  · subst hy
    simp [books, take, book, hchannel, hmsg]
  · simp [books, take, hy]

theorem books_take_self (rest : List Message) :
    books (s.take x rest) x =
      { books s x with incoming := rest.filter entered } := by
  simp [books, take, book]

theorem books_take_other (rest : List Message) :
    books (s.take x rest) x.other = books s x.other := by
  simp [books, take]

theorem incoming_books
    (hchannel : s.channel x = msg :: rest) (hmsg : entered msg = true) :
    (books s x).incoming = msg :: rest.filter entered := by
  simp [books, book, hchannel, hmsg]

theorem move_answer
    (hchannel : s.channel x = msg :: rest)
    (htype : msg.messageType = .End_Send_File) (reply : Message)
    (hreply : reply.IsResult) (htask : reply.task = msg.task)
    (state : FileTransferState) (matched : List (Option TaskId))
    (hsuccess : reply.messageType = .Succese_Recieve_File →
      msg.task ∈ matched) :
    Move (books s) (books ((((s.take x rest).sendData x true reply).modify x
      (.unAttach msg.sUserResGuid)).modify x fun e =>
        { e.transferFileComplete msg.task state with
          matched := e.matched ++ matched })) := by
  have hentered : entered msg = true := by
    simp [entered, Message.IsEnd, htype]
  have hsent : entered reply = true := by
    simp [entered, hreply]
  have hself : books (((s.take x rest).sendData x true reply).modify x
        (.unAttach msg.sUserResGuid)) x =
      { books s x with incoming := rest.filter entered } := by
    rw [books_modify (unentered_unAttach _), books_sendData_self,
      books_take_self]
  refine .answer x msg reply (rest.filter entered) state matched
    (incoming_books hchannel hentered) htype hreply htask hsuccess ?_ ?_
  · rw [books_modify_self]
    simp only [books, book, Book.mk.injEq] at hself
    obtain ⟨hrunning, hallocated, hended, hrefused, hcancelled, hmatched,
      hcompleted, hincoming⟩ := hself
    simp only [book, Book.report, books, Endpoint.transferFileComplete,
      Book.mk.injEq]
    exact ⟨hrunning, hallocated, hended, hrefused, hcancelled,
      congrArg (· ++ matched) hmatched, congrArg (· ++ _) hcompleted,
      hincoming⟩
  · rw [books_modify_other, books_modify (unentered_unAttach _),
      books_sendData_other hsent, books_take_other]

theorem move_endSendFile
    (hchannel : s.channel x = msg :: rest)
    (htype : msg.messageType = .End_Send_File) (fileMd5 : Str) :
    Move (books s)
      (books ((s.take x rest).endSendFile x msg fileMd5 true)) := by
  by_cases hequal : fileMd5 = msg.message
  · simp only [endSendFile, hequal, decide_true, if_true]
    exact move_answer hchannel htype
      { msg with messageType := .Succese_Recieve_File } (Or.inl rfl) rfl
      .FILE_TRANSFER_SUCESS [msg.task] (by simp)
  · simp only [endSendFile, hequal, decide_false, Bool.false_eq_true,
      if_false]
    have hmove := move_answer hchannel htype
      { msg with messageType := .Failure_Recieve_File } (Or.inr rfl) rfl
      .FILE_TRANSFER_FAILURE [] (by simp)
    simpa using hmove

theorem move_transferFileComplete
    (hchannel : s.channel x = msg :: rest) (hresult : msg.IsResult)
    {state : FileTransferState}
    (hsuccess : state = .FILE_TRANSFER_SUCESS →
      msg.messageType = .Succese_Recieve_File) :
    Move (books s) (books ((s.take x rest).modify x
      (.transferFileComplete msg.task state))) := by
  have hentered : entered msg = true := by
    simp [entered, hresult]
  refine .conclude x msg (rest.filter entered) state
    (incoming_books hchannel hentered) hresult hsuccess ?_ ?_
  · simp [books, book, take, modify, Endpoint.transferFileComplete,
      Book.report]
  · rw [books_modify_other, books_take_other]

theorem entered_eq_false {type : MessageID}
    (htype : msg.messageType = type)
    (hother : type ≠ .End_Send_File ∧ type ≠ .Succese_Recieve_File ∧
      type ≠ .Failure_Recieve_File ∧ type ≠ .Cancle_File_Transfer) :
    entered msg = false := by
  simp [entered, Message.IsEnd, Message.IsResult, Message.IsCancel, htype,
    hother]

theorem deliver_cons {opened : Bool} {fileMd5 : Str}
    (h : s.channel x = msg :: rest) :
    s.deliver x opened fileMd5 sent =
      match fileCallback msg.messageType.code with
      | none => some (s.take x rest)
      | some id => some ((s.take x rest).callbackWebrtcClient x id msg
          opened fileMd5 sent) := by
  rw [deliver, h]
  rfl

theorem move_deliver (h : Balanced (books s)) {opened : Bool}
    {fileMd5 : Str}
    (hagree : s.Agreeable (.deliver x opened fileMd5 sent))
    (hstep : s.deliver x opened fileMd5 sent = some t) :
    Move (books s) (books t) := by
  cases hchannel : s.channel x with
  | nil => simp [deliver, hchannel] at hstep
  | cons msg rest =>
    obtain ⟨hcreate, hend⟩ := hagree msg rest hchannel
    have hnone (hmsg : entered msg = false) :=
      books_take hchannel hmsg
    rw [deliver_cons hchannel] at hstep
    cases htype : msg.messageType with
    | Create_File =>
      have hmsg := entered_eq_false htype (by decide)
      rw [htype] at hstep
      cases hstep
      refine .none ?_
      rw [← hnone hmsg]
      exact books_acceptFile (hcreate htype)
    | Can_Continue_Send =>
      have hmsg := entered_eq_false htype (by decide)
      rw [htype] at hstep
      cases hstep
      refine .none ?_
      rw [← hnone hmsg]
      change books (((s.take x rest).modify x (.modifyThread
        msg.sUserResGuid fun thread => { thread with
          recieverGuid := msg.rUserResGuid })).modify x
            (.resumeChildThread msg.sUserResGuid)) = _
      rw [books_modify (unentered_resumeChildThread _),
        books_modify (unentered_modifyThread _ _)]
    | Interrupt_File_Transfer =>
      have hmsg := entered_eq_false htype (by decide)
      rw [htype] at hstep
      cases hstep
      refine .none ?_
      rw [← hnone hmsg]
      simp only [callbackWebrtcClient]
      split
      · exact books_modify (unentered_suspendChildThread _)
      · rfl
    | Restart_File_Transfer =>
      have hmsg := entered_eq_false htype (by decide)
      rw [htype] at hstep
      cases hstep
      refine .none ?_
      rw [← hnone hmsg]
      simp only [callbackWebrtcClient]
      split
      · exact books_modify (unentered_resumeChildThread _)
      · rfl
    | Cancle_File_Transfer =>
      have hcancel : msg.IsCancel := htype
      have hmsg : entered msg = true := by
        simp [entered, hcancel]
      refine absurd hcancel ((h x).noCancel msg ?_)
      rw [incoming_books hchannel hmsg]
      exact List.mem_cons_self
    | End_Send_File =>
      rw [htype] at hstep
      cases hstep
      rw [hend htype]
      exact move_endSendFile hchannel htype fileMd5
    | Succese_Recieve_File =>
      rw [htype] at hstep
      cases hstep
      exact move_transferFileComplete hchannel (Or.inl htype)
        fun _ => htype
    | Failure_Recieve_File =>
      rw [htype] at hstep
      cases hstep
      exact move_transferFileComplete hchannel (Or.inr htype)
        fun h => by cases h
    | Send_File | Resume_Opposite_Send | Recieve_File
    | Not_Can_Continue_Send | RFileRecieveState_To_Sender
    | RFileSendState_To_Reciever | End_Recieve_File =>
      have hmsg := entered_eq_false htype (by decide)
      rw [htype] at hstep
      cases hstep
      exact .none (hnone hmsg)

theorem move_step (h : Balanced (books s)) {e : Event}
    (hagree : s.Agreeable e) (hstep : s.step e = some t) :
    Move (books s) (books t) := by
  cases e with
  | sendFile x filename =>
    cases hstep
    exact move_sendFile hagree
  | createRecieveFile x guid =>
    cases hstep
    exact move_createRecieveFile
  | interruptFileTask x guid sent =>
    cases hstep
    refine .none ?_
    simp only [interruptFileTask]
    split
    · rfl
    · rw [books_sendData rfl]
      exact books_modify (unentered_suspendChildThread guid)
  | restartFileTask x guid sent =>
    cases hstep
    refine .none ?_
    simp only [restartFileTask]
    split
    · rfl
    · rw [books_sendData rfl]
      exact books_modify (unentered_resumeChildThread guid)
  | cancleFileTask x guid sent => exact absurd hagree id
  | acceptFile x guid message opened sent =>
    cases hstep
    exact .none (books_acceptFile hagree)
  | refuseFile x guid message sent => exact absurd hagree id
  | run x i ok md5 =>
    simp only [Link.step, runStep, Option.bind_eq_bind,
      Option.bind_eq_some_iff] at hstep
    obtain ⟨run, hrun, thread, -, hstep⟩ := hstep
    split at hstep
    · exact move_runThread hrun (hagree run hrun) hstep
    · cases hstep
  | spuriousWakeup x i =>
    simp only [Link.step, wakeRun, Option.bind_eq_bind,
      Option.bind_eq_some_iff, Option.some.injEq] at hstep
    obtain ⟨run, hrun, rfl⟩ := hstep
    exact .none (books_setRun hrun rfl)
  | releaseRun x i =>
    simp only [Link.step, releaseRun, Option.bind_eq_bind,
      Option.bind_eq_some_iff, Option.some.injEq] at hstep
    obtain ⟨guid, -, rfl⟩ := hstep
    exact .none (books_modify fun e incoming => rfl)
  | deliver x opened fileMd5 sent => exact move_deliver h hagree hstep

/-! ## What balanced books say -/

section Balanced

variable (h : Balanced (books s)) (task : TaskId)
include h

theorem received_le_ended :
    ((s.endpoint task.side.other).completed.map Prod.fst).count
      (some task) ≤ (s.endpoint task.side).ended.count (some task) :=
  le_trans (Nat.le_add_left _ _) ((h task.side).ends task.number)

theorem reported_le_received :
    ((s.endpoint task.side).completed.map Prod.fst).count (some task) ≤
      ((s.endpoint task.side.other).completed.map Prod.fst).count
        (some task) :=
  le_trans (Nat.le_add_left _ _) ((h task.side).results task.number).le

theorem reported_eq_received (hquiet : ∀ x, s.channel x = []) :
    ((s.endpoint task.side).completed.map Prod.fst).count (some task) =
      ((s.endpoint task.side.other).completed.map Prod.fst).count
        (some task) := by
  have hresults := (h task.side).results task.number
  have hnone : (books s task.side).results ⟨task.side, task.number⟩ = 0 := by
    simp [books, book, Book.results, hquiet]
  rw [hnone, Nat.zero_add] at hresults
  exact hresults

theorem not_mem_runs_of_ended
    (hended : some task ∈ (s.endpoint task.side).ended) (x : Side) :
    ∀ run ∈ (s.endpoint x).runs, run.task ≠ some task := by
  intro run hrun htask
  have hmem : some task ∈ (books s x).running :=
    htask ▸ List.mem_map_of_mem hrun
  obtain ⟨n, -, hn⟩ := (h x).running _ hmem
  have hside : task = ⟨x, n⟩ := Option.some.inj hn
  subst hside
  have honce := (h x).once n
  have hrunning : 0 < (books s x).running.count (some ⟨x, n⟩) :=
    List.count_pos_iff.mpr hmem
  have hended : 0 < (books s x).ended.count (some ⟨x, n⟩) :=
    List.count_pos_iff.mpr hended
  omega

end Balanced

theorem count_completed_pos_iff {completed : List
      (Option TaskId × FileTransferState)} {task : TaskId} :
    0 < (completed.map Prod.fst).count (some task) ↔
      ∃ state, (some task, state) ∈ completed := by
  rw [List.count_pos_iff, List.mem_map]
  constructor
  · rintro ⟨⟨task', state⟩, hmem, rfl⟩
    exact ⟨state, hmem⟩
  · rintro ⟨state, hmem⟩
    exact ⟨_, hmem, rfl⟩

theorem agrees_of_balanced (h : Balanced (books s)) : s.Agrees where
  once := by
    rintro x task
    have hended : (s.endpoint task.side).ended.count (some task) ≤ 1 :=
      le_trans (Nat.le_add_left _ _) ((h task.side).once task.number)
    have hreceived := received_le_ended h task
    have hreported := reported_le_received h task
    rcases task.side.eq_or_eq_other x with rfl | rfl <;> omega
  matched task hmem := (h task.side).matched task.number hmem
  quiescent := by
    intro hquiet x task hsettled hwaits
    have hequal := reported_eq_received h task hquiet
    have hcompleted : ∀ y, ∃ state,
        (some task, state) ∈ (s.endpoint y).completed := by
      obtain ⟨hrefused, hcancelled⟩ := (h x).calm
      have hpos : 0 < ((s.endpoint x).completed.map Prod.fst).count
          (some task) := by
        rcases hsettled with hmem | hmem | hmem
        · exact absurd hmem (by
            rw [show (s.endpoint x).refused = [] from hrefused]
            simp)
        · exact absurd hmem (by
            rw [show (s.endpoint x).cancelled = [] from hcancelled]
            simp)
        · exact count_completed_pos_iff.mpr hmem
      intro y
      refine count_completed_pos_iff.mp ?_
      rcases task.side.eq_or_eq_other x with rfl | rfl <;>
        rcases task.side.eq_or_eq_other y with rfl | rfl <;> omega
    rcases hwaits with ⟨run, hrun, htask, -⟩ | ⟨-, hnone⟩
    · refine not_mem_runs_of_ended h task ?_ _ run hrun htask
      refine List.count_pos_iff.mp ?_
      exact lt_of_lt_of_le
        (count_completed_pos_iff.mpr (hcompleted task.side.other))
        (received_le_ended h task)
    · obtain ⟨state, hstate⟩ := hcompleted x.other
      exact hnone state hstate

def Accounted (s : Link) : Prop := Balanced (books s)

theorem accounted_of_agreeable_run
    (h : ReachableVia (· = new) step Agreeable s) : s.Accounted := by
  refine h.invariant ?_ ?_
  · rintro s rfl
    exact balanced_new
  · intro s e t hs hagree hstep
    exact Balanced.move hs (move_step hs hagree hstep)

/-- In every run of agreeable steps the endpoints agree. -/
theorem agrees_of_agreeable_run
    (h : ReachableVia (· = new) step Agreeable s) : s.Agrees :=
  agrees_of_balanced (accounted_of_agreeable_run h)

def sampleTransfer : List Event :=
  [.createRecieveFile .right [0x67], .sendFile .left [0x67],
    .run .left 0 true [], .run .left 0 true [],
    .deliver .right true [] true, .deliver .left true [] true]

theorem agrees_sampleTransfer :
    ((execute step new sampleTransfer).getD new).Agrees := by
  refine agrees_of_agreeable_run (.step (.step (.step (.step (.step (.step
    (.init rfl)
    (e := .createRecieveFile .right [0x67]) ?_ rfl)
    (e := .sendFile .left [0x67]) ?_ rfl)
    (e := .run .left 0 true []) ?_ rfl)
    (e := .run .left 0 true []) ?_ rfl)
    (e := .deliver .right true [] true) ?_ rfl)
    (e := .deliver .left true [] true) ?_ rfl)
  · exact trivial
  · exact rfl
  · exact fun _ _ _ => rfl
  · exact fun _ _ _ => rfl
  · rintro msg rest ⟨⟩
    exact ⟨fun _ => rfl, fun _ => rfl⟩
  · rintro msg rest ⟨⟩
    exact ⟨nofun, fun _ => rfl⟩

/-- A refusal is not dispatched, so the sender goes on waiting. -/
theorem not_forall_agrees :
    ¬∀ s, Reachable (· = new) step s → s.Agrees := by
  intro h
  have hreach : ∀ s, execute step new
      [.sendFile .left [0x67], .run .left 0 true [], .run .left 0 true [],
        .deliver .right true [] true, .deliver .left true [] true] = some s →
      Reachable (· = new) step s :=
    fun s hs => reachable_of_execute rfl hs
  have hagrees := h _ (hreach _ rfl)
  refine hagrees.quiescent ?_ .right ⟨.left, 0⟩ (Or.inl ?_) (Or.inl ?_)
  · intro x
    cases x <;> rfl
  · exact List.mem_singleton.mpr rfl
  · exact ⟨⟨[0x67], 0, .blocked .forReply, some ⟨.left, 0⟩⟩,
      List.mem_singleton.mpr rfl, rfl, by simp [SenderPc.AwaitsReply]⟩

end Link

end WebrtcWinXp.FileTransfer
