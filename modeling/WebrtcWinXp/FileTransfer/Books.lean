import WebrtcWinXp.FileTransfer.TwoEndpoints
import Mathlib.Data.List.Perm.Basic

/-!
# The books of two endpoints

What decides the outcome of a task.  A task moves from a thread to an end on
its way, from there to the receiver's report and a result on its way, and from
there to the sender's report.

This file is about such books alone; `Agreement` reads them off two endpoints.
-/

namespace WebrtcWinXp.FileTransfer

open Support

theorem Side.eq_or_eq_other (x y : Side) : y = x ∨ y = x.other := by
  cases x <;> cases y <;> simp [Side.other]

@[simp] theorem Side.other_other (x : Side) : x.other.other = x := by
  cases x <;> rfl

@[simp] theorem Side.other_ne (x : Side) : x.other ≠ x := by
  cases x <;> simp [Side.other]

@[simp] theorem Side.ne_other (x : Side) : x ≠ x.other := by
  cases x <;> simp [Side.other]

namespace Message

def IsEnd (msg : Message) : Prop := msg.messageType = .End_Send_File

def IsResult (msg : Message) : Prop :=
  msg.messageType = .Succese_Recieve_File ∨
    msg.messageType = .Failure_Recieve_File

def IsCancel (msg : Message) : Prop :=
  msg.messageType = .Cancle_File_Transfer

instance (msg : Message) : Decidable msg.IsEnd :=
  inferInstanceAs (Decidable (_ = _))

instance (msg : Message) : Decidable msg.IsResult :=
  inferInstanceAs (Decidable (_ ∨ _))

instance (msg : Message) : Decidable msg.IsCancel :=
  inferInstanceAs (Decidable (_ = _))

theorem IsEnd.not_isResult {msg : Message} (h : msg.IsEnd) :
    ¬msg.IsResult := by
  rw [IsEnd] at h
  simp [IsResult, h]

end Message

/-- The book of one side, with the ends, results and cancellations that are
on the way to it. -/
structure Book where
  running : List (Option TaskId)
  allocated : ℕ
  ended : List (Option TaskId)
  refused : List (Option TaskId)
  cancelled : List (Option TaskId)
  matched : List (Option TaskId)
  completed : List (Option TaskId × FileTransferState)
  incoming : List Message

namespace Book

/-- How often a side reported the completion of a task. -/
def reports (b : Book) (t : TaskId) : ℕ :=
  (b.completed.map Prod.fst).count (some t)

def ends (b : Book) (t : TaskId) : ℕ :=
  b.incoming.countP fun msg => msg.IsEnd ∧ msg.task = some t

def results (b : Book) (t : TaskId) : ℕ :=
  b.incoming.countP fun msg => msg.IsResult ∧ msg.task = some t

/-! ### Entries -/

def allocate (b : Book) : Book := { b with allocated := b.allocated + 1 }

def start (x : Side) (b : Book) : Book :=
  { b with
    allocated := b.allocated + 1
    running := b.running ++ [some ⟨x, b.allocated⟩] }

def finish (i : ℕ) (task : Option TaskId) (b : Book) : Book :=
  { b with
    running := b.running.eraseIdx i
    ended := b.ended ++ [task] }

def send (msgs : List Message) (b : Book) : Book :=
  { b with incoming := b.incoming ++ msgs }

def report (rest : List Message) (task : Option TaskId)
    (state : FileTransferState) (matched : List (Option TaskId))
    (b : Book) : Book :=
  { b with
    incoming := rest
    completed := b.completed ++ [(task, state)]
    matched := b.matched ++ matched }

variable {b : Book} {t : TaskId}

theorem reports_report (rest : List Message) (task : Option TaskId)
    (state : FileTransferState) (matched : List (Option TaskId)) :
    (b.report rest task state matched).reports t =
      b.reports t + if task = some t then 1 else 0 := by
  simp [reports, report, List.count_append, List.count_singleton]

theorem ends_cons {msg : Message} {rest : List Message}
    (h : b.incoming = msg :: rest) :
    b.ends t = rest.countP (fun msg => msg.IsEnd ∧ msg.task = some t) +
      if msg.IsEnd ∧ msg.task = some t then 1 else 0 := by
  simp [ends, h, List.countP_cons]

theorem results_cons {msg : Message} {rest : List Message}
    (h : b.incoming = msg :: rest) :
    b.results t =
      rest.countP (fun msg => msg.IsResult ∧ msg.task = some t) +
        if msg.IsResult ∧ msg.task = some t then 1 else 0 := by
  simp [results, h, List.countP_cons]

theorem ends_send (msgs : List Message) :
    (b.send msgs).ends t = b.ends t +
      msgs.countP fun msg => msg.IsEnd ∧ msg.task = some t := by
  simp [ends, send, List.countP_append]

theorem results_send (msgs : List Message) :
    (b.send msgs).results t = b.results t +
      msgs.countP fun msg => msg.IsResult ∧ msg.task = some t := by
  simp [results, send, List.countP_append]

theorem count_running_finish {i : ℕ} {task : Option TaskId}
    (hi : b.running[i]? = some task) :
    (b.finish i task).running.count (some t) +
        (if task = some t then 1 else 0) = b.running.count (some t) := by
  obtain ⟨hlt, rfl⟩ := List.getElem?_eq_some_iff.mp hi
  rw [← (List.getElem_cons_eraseIdx_perm hlt).count_eq, List.count_cons]
  simp [finish]

theorem count_ended_finish (b : Book) (i : ℕ) (task : Option TaskId)
    (t : TaskId) : (b.finish i task).ended.count (some t) =
      b.ended.count (some t) + if task = some t then 1 else 0 := by
  simp [finish, List.count_append, List.count_singleton]

end Book

/-- The account of the tasks that a side sends: each is in at most one place,
and what the peer has reported the side has reported or will. -/
structure Account (x : Side) (own peer : Book) : Prop where
  running : ∀ task ∈ own.running, ∃ n < own.allocated, task = some ⟨x, n⟩
  ended : ∀ n, some ⟨x, n⟩ ∈ own.ended → n < own.allocated
  once : ∀ n,
    own.running.count (some ⟨x, n⟩) + own.ended.count (some ⟨x, n⟩) ≤ 1
  ends : ∀ n, peer.ends ⟨x, n⟩ + peer.reports ⟨x, n⟩ ≤
    own.ended.count (some ⟨x, n⟩)
  results : ∀ n, own.results ⟨x, n⟩ + own.reports ⟨x, n⟩ =
    peer.reports ⟨x, n⟩
  calm : own.refused = [] ∧ own.cancelled = []
  noCancel : ∀ msg ∈ own.incoming, ¬msg.IsCancel
  endSide : ∀ msg ∈ peer.incoming, msg.IsEnd → ∀ t, msg.task = some t →
    t.side = x
  resultSide : ∀ msg ∈ own.incoming, msg.IsResult → ∀ t,
    msg.task = some t → t.side = x
  matchedResult : ∀ msg ∈ own.incoming,
    msg.messageType = .Succese_Recieve_File → msg.task ∈ peer.matched
  matched : ∀ n, (some ⟨x, n⟩, .FILE_TRANSFER_SUCESS) ∈ own.completed →
    some ⟨x, n⟩ ∈ peer.matched

namespace Account

variable {x : Side} {own peer : Book} {msg reply : Message}
  {rest : List Message}

theorem allocate (h : Account x own peer) : Account x own.allocate peer where
  running := by
    intro task htask
    obtain ⟨n, hn, rfl⟩ := h.running task htask
    exact ⟨n, Nat.lt_succ_of_lt hn, rfl⟩
  ended n hn := Nat.lt_succ_of_lt (h.ended n hn)
  once := h.once
  ends := h.ends
  results := h.results
  calm := h.calm
  noCancel := h.noCancel
  endSide := h.endSide
  resultSide := h.resultSide
  matchedResult := h.matchedResult
  matched := h.matched

theorem start (h : Account x own peer) : Account x (own.start x) peer where
  running := by
    intro task htask
    rcases List.mem_append.mp htask with htask | htask
    · obtain ⟨n, hn, rfl⟩ := h.running task htask
      exact ⟨n, Nat.lt_succ_of_lt hn, rfl⟩
    · exact ⟨own.allocated, Nat.lt_succ_self _, List.mem_singleton.mp htask⟩
  ended n hn := Nat.lt_succ_of_lt (h.ended n hn)
  once := by
    intro n
    have honce := h.once n
    by_cases hn : own.allocated = n
    · subst hn
      have hrunning : own.running.count (some ⟨x, own.allocated⟩) = 0 := by
        refine List.count_eq_zero.mpr fun hmem => ?_
        obtain ⟨n, hn, heq⟩ := h.running _ hmem
        simp only [Option.some.injEq, TaskId.mk.injEq, true_and] at heq
        omega
      have hended : own.ended.count (some ⟨x, own.allocated⟩) = 0 := by
        refine List.count_eq_zero.mpr fun hmem => ?_
        exact absurd (h.ended _ hmem) (lt_irrefl _)
      simp [Book.start, List.count_append, hrunning, hended]
    · simpa [Book.start, List.count_append, List.count_singleton, hn]
        using honce
  ends := h.ends
  results := h.results
  calm := h.calm
  noCancel := h.noCancel
  endSide := h.endSide
  resultSide := h.resultSide
  matchedResult := h.matchedResult
  matched := h.matched

theorem finish (h : Account x own peer) {i : ℕ} {task : Option TaskId}
    (hi : own.running[i]? = some task) {sent : List Message}
    (hsent : sent = [] ∨ ∃ msg : Message,
      msg.IsEnd ∧ msg.task = task ∧ sent = [msg]) :
    Account x (own.finish i task) (peer.send sent) where
  running := by
    intro task' htask'
    exact h.running task' (List.mem_of_mem_eraseIdx htask')
  ended := by
    intro n hn
    rcases List.mem_append.mp hn with hn | hn
    · exact h.ended n hn
    · obtain ⟨m, hm, rfl⟩ := h.running task (List.mem_of_getElem? hi)
      have heq := List.mem_singleton.mp hn
      simp only [Option.some.injEq, TaskId.mk.injEq, true_and] at heq
      rw [heq]
      exact hm
  once := by
    intro n
    have honce := h.once n
    have hcount := Book.count_running_finish (t := ⟨x, n⟩) hi
    have hended := Book.count_ended_finish own i task ⟨x, n⟩
    omega
  ends := by
    intro n
    have hends := h.ends n
    have hended := Book.count_ended_finish own i task ⟨x, n⟩
    have hreports : (peer.send sent).reports ⟨x, n⟩ =
      peer.reports ⟨x, n⟩ := rfl
    rw [Book.ends_send, hended, hreports]
    rcases hsent with rfl | ⟨msg, hend, rfl, rfl⟩
    · simp only [List.countP_nil]
      omega
    · simp only [List.countP_cons, List.countP_nil, hend, true_and,
        decide_eq_true_eq]
      omega
  results := h.results
  calm := h.calm
  noCancel := h.noCancel
  endSide := by
    intro msg hmsg hend t ht
    rcases List.mem_append.mp hmsg with hmsg | hmsg
    · exact h.endSide msg hmsg hend t ht
    · rcases hsent with rfl | ⟨msg', -, hmsg', rfl⟩
      · cases hmsg
      · obtain rfl := List.mem_singleton.mp hmsg
        obtain ⟨n, -, hn⟩ := h.running task (List.mem_of_getElem? hi)
        rw [ht, hn] at hmsg'
        exact congrArg TaskId.side (Option.some.inj hmsg')
  resultSide := h.resultSide
  matchedResult := h.matchedResult
  matched := h.matched

theorem peer_start (h : Account x own peer) {y : Side} :
    Account x own (peer.start y) :=
  ⟨h.running, h.ended, h.once, h.ends, h.results, h.calm, h.noCancel,
    h.endSide, h.resultSide, h.matchedResult, h.matched⟩

theorem peer_allocate (h : Account x own peer) :
    Account x own peer.allocate :=
  ⟨h.running, h.ended, h.once, h.ends, h.results, h.calm, h.noCancel,
    h.endSide, h.resultSide, h.matchedResult, h.matched⟩

theorem peer_finish (h : Account x own peer) {i : ℕ}
    {task : Option TaskId} {sent : List Message}
    (hsent : ∀ msg ∈ sent, msg.IsEnd) :
    Account x (own.send sent) (peer.finish i task) where
  running := h.running
  ended := h.ended
  once := h.once
  ends := h.ends
  results := by
    intro n
    have hnone : sent.countP
        (fun msg => msg.IsResult ∧ msg.task = some ⟨x, n⟩) = 0 := by
      refine List.countP_eq_zero.mpr fun msg hmsg => ?_
      simp [(hsent msg hmsg).not_isResult]
    rw [Book.results_send, hnone]
    exact h.results n
  calm := h.calm
  noCancel := by
    intro msg hmsg
    rcases List.mem_append.mp hmsg with hmsg | hmsg
    · exact h.noCancel msg hmsg
    · have hend := hsent msg hmsg
      rw [Message.IsEnd] at hend
      simp [Message.IsCancel, hend]
  endSide := h.endSide
  resultSide := by
    intro msg hmsg hresult
    rcases List.mem_append.mp hmsg with hmsg | hmsg
    · exact h.resultSide msg hmsg hresult
    · exact absurd hresult (hsent msg hmsg).not_isResult
  matchedResult := by
    intro msg hmsg hsuccess
    rcases List.mem_append.mp hmsg with hmsg | hmsg
    · exact h.matchedResult msg hmsg hsuccess
    · exact absurd (Or.inl hsuccess) (hsent msg hmsg).not_isResult
  matched := h.matched

/-! ### Reports -/

theorem mem_incoming {msg' : Message} (hincoming : own.incoming = msg :: rest)
    (h : msg' ∈ rest) : msg' ∈ own.incoming :=
  hincoming ▸ List.mem_cons_of_mem msg h

theorem answer (h : Account x own peer) (hincoming : own.incoming = msg :: rest)
    (hend : msg.IsEnd) (hside : ∀ n, msg.task ≠ some ⟨x, n⟩)
    (hreply : reply.IsResult) (state : FileTransferState)
    (matched : List (Option TaskId)) :
    Account x (own.report rest msg.task state matched)
      (peer.send [reply]) where
  running := h.running
  ended := h.ended
  once := h.once
  ends := by
    intro n
    have hnone : [reply].countP
        (fun msg => msg.IsEnd ∧ msg.task = some ⟨x, n⟩) = 0 := by
      refine List.countP_eq_zero.mpr fun msg hmsg => ?_
      have hnot : ¬reply.IsEnd := fun hend => hend.not_isResult hreply
      rw [List.mem_singleton.mp hmsg]
      simp [hnot]
    rw [Book.ends_send, hnone]
    exact h.ends n
  results := by
    intro n
    have hresults := h.results n
    rw [Book.results_cons hincoming, if_neg (by simp [hend.not_isResult])]
      at hresults
    rw [Book.reports_report, if_neg (hside n)]
    exact hresults
  calm := h.calm
  noCancel msg' hmsg' :=
    h.noCancel msg' (mem_incoming hincoming hmsg')
  endSide := by
    intro msg' hmsg' hend'
    rcases List.mem_append.mp hmsg' with hmsg' | hmsg'
    · exact h.endSide msg' hmsg' hend'
    · rw [List.mem_singleton.mp hmsg'] at hend'
      exact absurd hreply hend'.not_isResult
  resultSide msg' hmsg' :=
    h.resultSide msg' (mem_incoming hincoming hmsg')
  matchedResult msg' hmsg' :=
    h.matchedResult msg' (mem_incoming hincoming hmsg')
  matched := by
    intro n hn
    rcases List.mem_append.mp hn with hn | hn
    · exact h.matched n hn
    · have heq := List.mem_singleton.mp hn
      exact absurd (Prod.mk.inj heq).1.symm (hside n)

theorem peer_answer (h : Account x own peer)
    (hincoming : peer.incoming = msg :: rest) (hend : msg.IsEnd)
    (hreply : reply.IsResult) (htask : reply.task = msg.task)
    (state : FileTransferState) {matched : List (Option TaskId)}
    (hsuccess : reply.messageType = .Succese_Recieve_File →
      msg.task ∈ matched) :
    Account x (own.send [reply])
      (peer.report rest msg.task state matched) where
  running := h.running
  ended := h.ended
  once := h.once
  ends := by
    intro n
    have hends := h.ends n
    rw [Book.ends_cons hincoming] at hends
    have hended : (own.send [reply]).ended = own.ended := rfl
    rw [Book.reports_report, hended]
    have hrest : (peer.report rest msg.task state matched).ends ⟨x, n⟩ =
      rest.countP fun msg => msg.IsEnd ∧ msg.task = some ⟨x, n⟩ := rfl
    rw [hrest]
    simp only [hend, true_and] at hends
    omega
  results := by
    intro n
    have hresults := h.results n
    have hreports : (own.send [reply]).reports ⟨x, n⟩ =
      own.reports ⟨x, n⟩ := rfl
    rw [Book.results_send, Book.reports_report, hreports, ← hresults]
    simp only [List.countP_cons, List.countP_nil, hreply, htask, true_and,
      decide_eq_true_eq]
    omega
  calm := h.calm
  noCancel := by
    intro msg' hmsg'
    rcases List.mem_append.mp hmsg' with hmsg' | hmsg'
    · exact h.noCancel msg' hmsg'
    · rw [List.mem_singleton.mp hmsg']
      rcases hreply with hreply | hreply <;>
        simp [Message.IsCancel, hreply]
  endSide msg' hmsg' :=
    h.endSide msg' (mem_incoming hincoming hmsg')
  resultSide := by
    intro msg' hmsg' hresult t ht
    rcases List.mem_append.mp hmsg' with hmsg' | hmsg'
    · exact h.resultSide msg' hmsg' hresult t ht
    · rw [List.mem_singleton.mp hmsg', htask] at ht
      refine h.endSide msg ?_ hend t ht
      rw [hincoming]
      exact List.mem_cons_self
  matchedResult := by
    intro msg' hmsg' hsuccess'
    rcases List.mem_append.mp hmsg' with hmsg' | hmsg'
    · exact List.mem_append_left _ (h.matchedResult msg' hmsg' hsuccess')
    · have heq := List.mem_singleton.mp hmsg'
      subst heq
      rw [htask]
      exact List.mem_append_right _ (hsuccess hsuccess')
  matched n hn := List.mem_append_left _ (h.matched n hn)

theorem conclude (h : Account x own peer)
    (hincoming : own.incoming = msg :: rest) (hresult : msg.IsResult)
    {state : FileTransferState}
    (hsuccess : state = .FILE_TRANSFER_SUCESS →
      msg.messageType = .Succese_Recieve_File) :
    Account x (own.report rest msg.task state []) peer where
  running := h.running
  ended := h.ended
  once := h.once
  ends := h.ends
  results := by
    intro n
    have hresults := h.results n
    rw [Book.results_cons hincoming] at hresults
    rw [Book.reports_report]
    have hrest : (own.report rest msg.task state []).results ⟨x, n⟩ =
      rest.countP fun msg => msg.IsResult ∧ msg.task = some ⟨x, n⟩ := rfl
    rw [hrest]
    simp only [hresult, true_and] at hresults
    omega
  calm := h.calm
  noCancel msg' hmsg' :=
    h.noCancel msg' (mem_incoming hincoming hmsg')
  endSide := h.endSide
  resultSide msg' hmsg' :=
    h.resultSide msg' (mem_incoming hincoming hmsg')
  matchedResult msg' hmsg' :=
    h.matchedResult msg' (mem_incoming hincoming hmsg')
  matched := by
    intro n hn
    rcases List.mem_append.mp hn with hn | hn
    · exact h.matched n hn
    · obtain ⟨htask, hstate⟩ := Prod.mk.inj (List.mem_singleton.mp hn)
      rw [htask]
      refine h.matchedResult msg ?_ (hsuccess hstate.symm)
      rw [hincoming]
      exact List.mem_cons_self

theorem peer_conclude (h : Account x own peer)
    (hincoming : peer.incoming = msg :: rest)
    (hside : ∀ n, msg.task ≠ some ⟨x, n⟩) (state : FileTransferState) :
    Account x own (peer.report rest msg.task state []) where
  running := h.running
  ended := h.ended
  once := h.once
  ends := by
    intro n
    have hends := h.ends n
    have hnot : ¬(msg.IsEnd ∧ msg.task = some ⟨x, n⟩) :=
      fun hend => hside n hend.2
    rw [Book.ends_cons hincoming, if_neg hnot] at hends
    rw [Book.reports_report, if_neg (hside n)]
    exact hends
  results := by
    intro n
    rw [Book.reports_report, if_neg (hside n)]
    exact h.results n
  calm := h.calm
  noCancel := h.noCancel
  endSide msg' hmsg' :=
    h.endSide msg' (mem_incoming hincoming hmsg')
  resultSide := h.resultSide
  matchedResult msg' hmsg' hsuccess' :=
    List.mem_append_left _ (h.matchedResult msg' hmsg' hsuccess')
  matched n hn := List.mem_append_left _ (h.matched n hn)

end Account

/-- The books of both sides, each with the account of its tasks. -/
def Balanced (b : Side → Book) : Prop := ∀ x, Account x (b x) (b x.other)

/-- What a step may enter in the books. -/
inductive Move (b b' : Side → Book) : Prop where
  /-- Nothing is entered. -/
  | none (h : b' = b)
  /-- An object is allocated. -/
  | allocate (x : Side) (hx : b' x = (b x).allocate)
      (hother : b' x.other = b x.other)
  /-- A task is started under a new number. -/
  | start (x : Side) (hx : b' x = (b x).start x)
      (hother : b' x.other = b x.other)
  /-- A thread ends its task, and the end may be sent. -/
  | finish (x : Side) (i : ℕ) (task : Option TaskId) (sent : List Message)
      (hi : (b x).running[i]? = some task)
      (hsent : sent = [] ∨ ∃ msg : Message,
        msg.IsEnd ∧ msg.task = task ∧ sent = [msg])
      (hx : b' x = (b x).finish i task)
      (hother : b' x.other = (b x.other).send sent)
  /-- An end is reported and answered. -/
  | answer (x : Side) (msg reply : Message) (rest : List Message)
      (state : FileTransferState) (matched : List (Option TaskId))
      (hincoming : (b x).incoming = msg :: rest) (hend : msg.IsEnd)
      (hreply : reply.IsResult) (htask : reply.task = msg.task)
      (hsuccess : reply.messageType = .Succese_Recieve_File →
        msg.task ∈ matched)
      (hx : b' x = (b x).report rest msg.task state matched)
      (hother : b' x.other = (b x.other).send [reply])
  /-- A result is reported. -/
  | conclude (x : Side) (msg : Message) (rest : List Message)
      (state : FileTransferState)
      (hincoming : (b x).incoming = msg :: rest) (hresult : msg.IsResult)
      (hsuccess : state = .FILE_TRANSFER_SUCESS →
        msg.messageType = .Succese_Recieve_File)
      (hx : b' x = (b x).report rest msg.task state [])
      (hother : b' x.other = b x.other)

variable {b b' : Side → Book}

theorem Balanced.of_sides (x : Side) (hx : Account x (b x) (b x.other))
    (hother : Account x.other (b x.other) (b x)) : Balanced b := by
  intro y
  rcases x.eq_or_eq_other y with rfl | rfl
  · exact hx
  · rw [Side.other_other]
    exact hother

theorem Balanced.other (h : Balanced b) (x : Side) :
    Account x.other (b x.other) (b x) := by
  have hother := h x.other
  rwa [Side.other_other] at hother

theorem Balanced.move (h : Balanced b) (hmove : Move b b') :
    Balanced b' := by
  cases hmove with
  | none heq =>
    rw [heq]
    exact h
  | allocate x hx hother =>
    refine .of_sides x ?_ ?_
    · rw [hx, hother]
      exact (h x).allocate
    · rw [hx, hother]
      exact (h.other x).peer_allocate
  | start x hx hother =>
    refine .of_sides x ?_ ?_
    · rw [hx, hother]
      exact (h x).start
    · rw [hx, hother]
      exact (h.other x).peer_start
  | finish x i task sent hi hsent hx hother =>
    refine .of_sides x ?_ ?_
    · rw [hx, hother]
      exact (h x).finish hi hsent
    · rw [hx, hother]
      refine (h.other x).peer_finish ?_
      rcases hsent with rfl | ⟨msg, hend, -, rfl⟩
      · simp
      · simpa using hend
  | answer x msg reply rest state matched hincoming hend hreply htask
      hsuccess hx hother =>
      have hmem : msg ∈ (b x).incoming := by
        rw [hincoming]
        exact List.mem_cons_self
      refine .of_sides x ?_ ?_
      · rw [hx, hother]
        refine (h x).answer hincoming hend ?_ hreply state matched
        intro n hn
        exact x.other_ne ((h.other x).endSide msg hmem hend _ hn).symm
      · rw [hx, hother]
        exact (h.other x).peer_answer hincoming hend hreply htask state
          hsuccess
  | conclude x msg rest state hincoming hresult hsuccess hx hother =>
    have hmem : msg ∈ (b x).incoming := by
      rw [hincoming]
      exact List.mem_cons_self
    refine .of_sides x ?_ ?_
    · rw [hx, hother]
      exact (h x).conclude hincoming hresult hsuccess
    · rw [hx, hother]
      refine (h.other x).peer_conclude hincoming ?_ state
      intro n hn
      exact x.other_ne ((h x).resultSide msg hmem hresult _ hn)

end WebrtcWinXp.FileTransfer
