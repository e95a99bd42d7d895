import WebrtcWinXp.FileTransfer.Repository
import WebrtcWinXp.Support.StdMap
import WebrtcWinXp.Support.Transition
import Mathlib.Data.List.Nodup

/-!
# The table of file tasks

`P2PThreadManagerFile` and `P2PThreadFile` of `P2PData/P2PThread.cc`, with the
conductor's calls that add and remove tasks.

A task object is registered under the guid of the sender's resource.  The
threads that execute `Run` on an object are counted; a thread that returns
from `Run` has started another one that calls `ReleaseThread`.
-/

namespace WebrtcWinXp.FileTransfer

open Support

inductive ThreadTaskType where
  | SEND_TASK
  | RECIEVE_TASK
  deriving DecidableEq

structure ThreadTaskDesFile where
  resGuid : Str
  resPath : Str
  deriving DecidableEq

/-- `P2PThreadFile`, with the number of threads that execute its `Run`. -/
structure P2PThread where
  senderResDes : ThreadTaskDesFile
  recieverResDes : ThreadTaskDesFile
  taskType : ThreadTaskType
  forceQuitFlag : Bool
  skipFlag : Bool
  running : ℕ
  deriving DecidableEq

/-- `CreateP2PThreadBase` followed by `SetSenderDes`. -/
def P2PThread.new (senderResDes : ThreadTaskDesFile) : P2PThread :=
  ⟨senderResDes, ⟨[], []⟩, .SEND_TASK, false, false, 0⟩

abbrev ThreadPtr := ℕ

/-- The map of `P2PThreadManagerFile`, the task objects that are alive, and
the guids that threads started by `Release` are going to release. -/
structure TaskTable where
  threadMap : StdMap Str ThreadPtr
  heap : StdMap ThreadPtr P2PThread
  releasing : List (ThreadPtr × Str)

namespace TaskTable

def new : TaskTable := ⟨.empty, .empty, []⟩

/-! ## `P2PThreadManagerFile` -/

def getThreadByGuid (guid : Str) (s : TaskTable) : Option ThreadPtr :=
  s.threadMap.find guid

/-- `Attach`: `Insert` keeps the entry of an earlier task. -/
def attach (threadGUID : Str) (thread : ThreadPtr) (s : TaskTable) :
    TaskTable :=
  { s with threadMap := s.threadMap.insert threadGUID thread }

def modifyThread (guid : Str) (f : P2PThread → P2PThread) (s : TaskTable) :
    TaskTable :=
  match s.getThreadByGuid guid with
  | none => s
  | some ptr =>
    match s.heap.find ptr with
    | none => s
    | some thread => { s with heap := s.heap.assign ptr (f thread) }

/-- `UnAttach`, which only raises the flag; the code that removed the task
is commented out. -/
def unAttach (threadGUID : Str) (s : TaskTable) : TaskTable :=
  s.modifyThread threadGUID fun thread =>
    { thread with forceQuitFlag := true }

/-- `Begin`: `Create` starts a thread on the registered object. -/
def begin (guid : Str) (s : TaskTable) : TaskTable :=
  s.modifyThread guid fun thread =>
    { thread with running := thread.running + 1 }

/-- `ReleaseThread` deletes the object and erases the entry. -/
def releaseThread (guid : Str) (s : TaskTable) : TaskTable :=
  match s.getThreadByGuid guid with
  | none => s
  | some ptr =>
    { s with
      heap := s.heap.erase ptr
      threadMap := s.threadMap.erase guid }

/-- A call or an exit.  An allocated object and the file path of a sending
repository, if the guid has one, come with the call. -/
inductive Event where
  | sendFile (filename : Str) (ptr : ThreadPtr) (filepath : Option Str)
  | createRecieveFile (guid : Str) (ptr : ThreadPtr) (resGoalPath : Str)
  | deleteRecieveFile (guid : Str)
  | cancleFileTask (guid : Str)
  | refuseFile (senderResGuid : Str)
  | endSendFile (sUserResGuid : Str)
  | runReturns (ptr : ThreadPtr)
  | releaseRun (ptr : ThreadPtr) (guid : Str)
  deriving DecidableEq

def allocate (ptr : ThreadPtr) (thread : P2PThread) (s : TaskTable) :
    Option TaskTable :=
  if (s.heap.find ptr).isSome then none
  else some { s with heap := s.heap.assign ptr thread }

/-- `SendFile`, for a guid whose repository has the given path. -/
def sendFile (filename : Str) (ptr : ThreadPtr) (filepath : Str)
    (s : TaskTable) : Option TaskTable := do
  let s ← s.allocate ptr (.new ⟨filename, filepath⟩)
  some ((s.attach filename ptr).begin filename)

/-- `CreateRecieveFile`, for a guid that is not found. -/
def createRecieveFile (guid : Str) (ptr : ThreadPtr) (resGoalPath : Str)
    (s : TaskTable) : Option TaskTable := do
  let s ← s.allocate ptr
    { P2PThread.new ⟨guid, resGoalPath⟩ with taskType := .RECIEVE_TASK }
  some (s.attach guid ptr)

/-- `Run` returns through `Release`, which starts a thread that releases the
guid of the sender's resource. -/
def runReturns (ptr : ThreadPtr) (s : TaskTable) : Option TaskTable := do
  let thread ← s.heap.find ptr
  if thread.running = 0 then none
  else
    some { s with
      heap := s.heap.assign ptr { thread with running := thread.running - 1 }
      releasing := (ptr, thread.senderResDes.resGuid) :: s.releasing }

def step (s : TaskTable) : Event → Option TaskTable
  | .sendFile _ _ none => some s
  | .sendFile filename ptr (some filepath) => s.sendFile filename ptr filepath
  | .createRecieveFile guid ptr resGoalPath =>
    if (s.getThreadByGuid guid).isSome then some s
    else s.createRecieveFile guid ptr resGoalPath
  | .deleteRecieveFile guid => some (s.unAttach guid)
  | .cancleFileTask guid => some (s.unAttach guid)
  | .refuseFile senderResGuid => some (s.unAttach senderResGuid)
  | .endSendFile sUserResGuid => some (s.unAttach sUserResGuid)
  | .runReturns ptr => s.runReturns ptr
  | .releaseRun ptr guid =>
    if (ptr, guid) ∈ s.releasing then
      some { s.releaseThread guid with
        releasing := s.releasing.erase (ptr, guid) }
    else none

end TaskTable

/-- The table together with the tasks that were created and have not ended,
each with its guid. -/
structure TrackedTable where
  table : TaskTable
  openTasks : StdMap ThreadPtr Str

namespace TrackedTable

open TaskTable

def new : TrackedTable := ⟨.new, .empty⟩

def close (openTasks : StdMap ThreadPtr Str) (guid : Str) :
    StdMap ThreadPtr Str :=
  fun ptr => if openTasks.find ptr = some guid then none else openTasks ptr

/-- What an event means for the open tasks: a creation opens a task, the end
of a transfer, a refusal, a deletion and a cancellation end those of their
guid, and the exit of a sender ends its own. -/
def track (s : TrackedTable) : Event → StdMap ThreadPtr Str
  | .sendFile _ _ none => s.openTasks
  | .sendFile filename ptr (some _) => s.openTasks.assign ptr filename
  | .createRecieveFile guid ptr _ =>
    if (s.table.getThreadByGuid guid).isSome then s.openTasks
    else s.openTasks.assign ptr guid
  | .deleteRecieveFile guid | .cancleFileTask guid | .refuseFile guid
  | .endSendFile guid => close s.openTasks guid
  | .runReturns _ => s.openTasks
  | .releaseRun ptr _ => s.openTasks.erase ptr

def step (s : TrackedTable) (e : Event) : Option TrackedTable :=
  (s.table.step e).map fun table => ⟨table, s.track e⟩

/-- The map holds exactly the open tasks, and every task object is in it. -/
def Exact (s : TrackedTable) : Prop :=
  (∀ guid ptr, s.table.getThreadByGuid guid = some ptr ↔
    s.openTasks.find ptr = some guid) ∧
  ∀ ptr, (s.table.heap.find ptr).isSome →
    ∃ guid, s.table.getThreadByGuid guid = some ptr

/-- No transfer is started for a guid that is in use, and no task in the map
is refused, deleted, cancelled or ended by its receiver. -/
def Plain (s : TrackedTable) : Event → Prop
  | .sendFile filename _ (some _) =>
    s.table.getThreadByGuid filename = none
  | .deleteRecieveFile guid | .cancleFileTask guid | .refuseFile guid
  | .endSendFile guid => s.table.getThreadByGuid guid = none
  | _ => True

/-! ## The invariant of plain runs -/

def guidOf (thread : P2PThread) : Str := thread.senderResDes.resGuid

/-- In a plain run the map, the objects and the open tasks agree, and every
thread that is going to release a guid belongs to a task that is still there
and runs no more. -/
structure Consistent (s : TrackedTable) : Prop where
  entry : ∀ guid ptr, s.table.threadMap.find guid = some ptr ↔
    (s.table.heap.find ptr).map guidOf = some guid
  tasks : ∀ ptr,
    s.openTasks.find ptr = (s.table.heap.find ptr).map guidOf
  running : ∀ ptr thread, s.table.heap.find ptr = some thread →
    thread.running ≤ 1
  releasing : ∀ ptr guid, (ptr, guid) ∈ s.table.releasing →
    ∃ thread, s.table.heap.find ptr = some thread ∧
      guidOf thread = guid ∧ thread.running = 0
  nodup : (s.table.releasing.map Prod.fst).Nodup

variable {s t : TrackedTable}

theorem consistent_new : Consistent new where
  entry := by
    intro guid ptr
    simp [new, TaskTable.new]
  tasks := by
    intro ptr
    simp [new, TaskTable.new]
  running := by
    intro ptr thread h
    cases h
  releasing := by
    intro ptr guid h
    cases h
  nodup := .nil

theorem Consistent.exact (h : Consistent s) : Exact s := by
  constructor
  · intro guid ptr
    rw [h.tasks, getThreadByGuid, h.entry]
  · intro ptr hptr
    obtain ⟨thread, hthread⟩ := Option.isSome_iff_exists.mp hptr
    exact ⟨guidOf thread, (h.entry _ _).mpr (by rw [hthread]; rfl)⟩

variable {guid : Str} {ptr : ThreadPtr}

theorem Consistent.add (h : Consistent s)
    {thread : P2PThread} (hguid : s.table.threadMap.find guid = none)
    (hptr : s.table.heap.find ptr = none) (hthread : guidOf thread = guid)
    (hrunning : thread.running ≤ 1) :
    Consistent
      ⟨{ s.table with
          heap := s.table.heap.assign ptr thread
          threadMap := s.table.threadMap.assign guid ptr },
        s.openTasks.assign ptr guid⟩ := by
  have hother : ∀ ptr', (s.table.heap.find ptr').map guidOf ≠ some guid := by
    intro ptr' hptr'
    rw [← h.entry, hguid] at hptr'
    cases hptr'
  refine ⟨?_, ?_, ?_, ?_, h.nodup⟩
  · intro guid' ptr'
    dsimp only
    rw [StdMap.find_assign_eq_some_iff, h.entry]
    by_cases heq : ptr' = ptr
    · subst heq
      simp [hthread, hptr, eq_comm]
    · rw [StdMap.find_assign_of_ne heq]
      constructor
      · rintro (⟨-, rfl⟩ | ⟨-, hold⟩)
        · exact absurd rfl heq
        · exact hold
      · intro hold
        refine .inr ⟨?_, hold⟩
        rintro rfl
        exact hother ptr' hold
  · intro ptr'
    dsimp only
    by_cases heq : ptr' = ptr
    · subst heq
      simp [hthread]
    · rw [StdMap.find_assign_of_ne heq, StdMap.find_assign_of_ne heq,
        h.tasks]
  · intro ptr' thread' hthread'
    rcases StdMap.find_assign_eq_some_iff.mp hthread' with
      ⟨rfl, rfl⟩ | ⟨-, hold⟩
    · exact hrunning
    · exact h.running ptr' thread' hold
  · intro ptr' guid' hmem
    obtain ⟨thread', hthread', hrest⟩ := h.releasing ptr' guid' hmem
    have hne : ptr' ≠ ptr := by
      rintro rfl
      rw [hptr] at hthread'
      cases hthread'
    exact ⟨thread', (StdMap.find_assign_of_ne hne).trans hthread', hrest⟩

variable {table : TaskTable}

/-- A thread that returns from `Run`. -/
theorem Consistent.runReturns (h : Consistent s) (hstep : s.table.runReturns ptr = some table) :
    Consistent ⟨table, s.openTasks⟩ := by
  simp only [TaskTable.runReturns, Option.bind_eq_bind,
    Option.bind_eq_some_iff] at hstep
  obtain ⟨thread, hthread, hstep⟩ := hstep
  split at hstep
  · cases hstep
  · rename_i hrunning
    cases hstep
    have hone := h.running ptr thread hthread
    have hmap := StdMap.map_find_assign (f := guidOf)
      (v := { thread with running := thread.running - 1 })
      (show (s.table.heap.find ptr).map guidOf = _ by rw [hthread]; rfl)
    have hfresh : ∀ guid, (ptr, guid) ∉ s.table.releasing := by
      intro guid hmem
      obtain ⟨thread', hthread', -, hzero⟩ := h.releasing ptr guid hmem
      obtain rfl := Option.some.inj (hthread.symm.trans hthread')
      exact hrunning hzero
    refine ⟨?_, ?_, ?_, ?_, ?_⟩
    · intro guid ptr'
      rw [hmap]
      exact h.entry guid ptr'
    · intro ptr'
      rw [hmap]
      exact h.tasks ptr'
    · intro ptr' thread' hthread'
      rcases StdMap.find_assign_eq_some_iff.mp hthread' with
        ⟨rfl, rfl⟩ | ⟨-, hold⟩
      · exact Nat.le_trans (Nat.sub_le _ _) hone
      · exact h.running ptr' thread' hold
    · intro ptr' guid hmem
      rcases List.mem_cons.mp hmem with heq | hold
      · cases heq
        exact ⟨_, StdMap.find_assign_self, rfl, by simp; omega⟩
      · have hne : ptr' ≠ ptr := by
          rintro rfl
          exact hfresh guid hold
        obtain ⟨thread', hthread', hrest⟩ := h.releasing ptr' guid hold
        exact ⟨thread', (StdMap.find_assign_of_ne hne).trans hthread',
          hrest⟩
    · refine List.nodup_cons.mpr ⟨?_, h.nodup⟩
      intro hmem
      obtain ⟨⟨ptr', guid⟩, hold, rfl⟩ := List.mem_map.mp hmem
      exact hfresh guid hold

theorem Consistent.releaseRun (h : Consistent s) (hmem : (ptr, guid) ∈ s.table.releasing) :
    Consistent
      ⟨{ s.table.releaseThread guid with
          releasing := s.table.releasing.erase (ptr, guid) },
        s.openTasks.erase ptr⟩ := by
  obtain ⟨thread, hthread, rfl, -⟩ := h.releasing ptr guid hmem
  have hentry : s.table.threadMap.find (guidOf thread) = some ptr :=
    (h.entry _ _).mpr (by rw [hthread]; rfl)
  have hnotMem : ∀ guid,
      (ptr, guid) ∉ s.table.releasing.erase (ptr, guidOf thread) := by
    intro guid hguid
    have heq : (ptr, guid) = (ptr, guidOf thread) :=
      List.inj_on_of_nodup_map h.nodup (List.mem_of_mem_erase hguid) hmem rfl
    rw [heq] at hguid
    exact (List.Nodup.of_map _ h.nodup).not_mem_erase hguid
  rw [TaskTable.releaseThread, getThreadByGuid, hentry]
  refine ⟨?_, ?_, ?_, ?_, ?_⟩
  · intro guid ptr'
    dsimp only
    rw [StdMap.find_erase_eq_some_iff, h.entry]
    by_cases heq : ptr' = ptr
    · subst heq
      simp [hthread, eq_comm]
    · rw [StdMap.find_erase_of_ne heq]
      constructor
      · exact fun hold => hold.2
      · intro hold
        refine ⟨?_, hold⟩
        rintro rfl
        rw [← h.entry, hentry] at hold
        exact heq (Option.some.inj hold).symm
  · intro ptr'
    dsimp only
    by_cases heq : ptr' = ptr
    · subst heq
      simp
    · rw [StdMap.find_erase_of_ne heq, StdMap.find_erase_of_ne heq, h.tasks]
  · intro ptr' thread' hthread'
    exact h.running ptr' thread'
      (StdMap.find_erase_eq_some_iff.mp hthread').2
  · intro ptr' guid hguid
    have hne : ptr' ≠ ptr := by
      rintro rfl
      exact hnotMem guid hguid
    obtain ⟨thread', hthread', hrest⟩ :=
      h.releasing ptr' guid (List.mem_of_mem_erase hguid)
    exact ⟨thread', (StdMap.find_erase_of_ne hne).trans hthread', hrest⟩
  · exact h.nodup.sublist (List.erase_sublist.map _)

theorem unAttach_of_not_found
    (h : table.getThreadByGuid guid = none) : table.unAttach guid = table := by
  simp [unAttach, modifyThread, h]

theorem close_of_not_found (h : Consistent s)
    (hguid : s.table.getThreadByGuid guid = none) :
    close s.openTasks guid = s.openTasks := by
  funext ptr
  refine if_neg ?_
  rw [h.tasks, ← h.entry]
  simp [getThreadByGuid] at hguid
  simp [hguid]

theorem allocate_eq_some {table' : TaskTable}
    {thread : P2PThread} (h : table.allocate ptr thread = some table') :
    table.heap.find ptr = none ∧
      table' = { table with heap := table.heap.assign ptr thread } := by
  unfold allocate at h
  split at h
  · cases h
  · rename_i hptr
    exact ⟨by simpa using hptr, (Option.some.inj h).symm⟩

/-- Starting a transfer under a guid that is not in use registers the new
object and starts one thread on it. -/
theorem sendFile_eq_some {table' : TaskTable} {filename filepath : Str} (hguid : table.threadMap.find filename = none)
    (h : table.sendFile filename ptr filepath = some table') :
    table.heap.find ptr = none ∧
      table' = { table with
        heap := table.heap.assign ptr
          { P2PThread.new ⟨filename, filepath⟩ with running := 1 }
        threadMap := table.threadMap.assign filename ptr } := by
  simp only [TaskTable.sendFile, Option.bind_eq_bind,
    Option.bind_eq_some_iff, Option.some.injEq] at h
  obtain ⟨_, hallocate, rfl⟩ := h
  obtain ⟨hptr, rfl⟩ := allocate_eq_some hallocate
  refine ⟨hptr, ?_⟩
  simp [attach, StdMap.insert_of_find_eq_none hguid, begin, modifyThread,
    getThreadByGuid, P2PThread.new]

theorem Consistent.step (h : Consistent s) {e : Event} (hplain : Plain s e)
    (hstep : s.step e = some t) : Consistent t := by
  obtain ⟨table, htable, rfl⟩ := Option.map_eq_some_iff.mp hstep
  have hend : ∀ guid, s.table.getThreadByGuid guid = none →
      Consistent ⟨s.table.unAttach guid, close s.openTasks guid⟩ := by
    intro guid hguid
    rw [unAttach_of_not_found hguid, close_of_not_found h hguid]
    exact h
  cases e with
  | sendFile filename ptr filepath =>
    cases filepath with
    | none =>
      cases htable
      exact h
    | some filepath =>
      obtain ⟨hptr, rfl⟩ := sendFile_eq_some hplain htable
      exact h.add hplain hptr rfl le_rfl
  | createRecieveFile guid ptr resGoalPath =>
    simp only [TaskTable.step] at htable
    split at htable
    · rename_i hfound
      cases htable
      simpa only [track, hfound, if_true] using h
    · rename_i hfound
      have hguid : s.table.threadMap.find guid = none := by
        simpa [getThreadByGuid] using hfound
      simp only [TaskTable.createRecieveFile, Option.bind_eq_bind,
        Option.bind_eq_some_iff, Option.some.injEq] at htable
      obtain ⟨_, hallocate, rfl⟩ := htable
      obtain ⟨hptr, rfl⟩ := allocate_eq_some hallocate
      have hthread : guidOf { P2PThread.new ⟨guid, resGoalPath⟩ with
          taskType := .RECIEVE_TASK } = guid := rfl
      have hadd := h.add hguid hptr hthread (Nat.zero_le _)
      simpa [attach, StdMap.insert_of_find_eq_none hguid, track, hfound]
        using hadd
  | deleteRecieveFile guid =>
    cases htable
    exact hend guid hplain
  | cancleFileTask guid =>
    cases htable
    exact hend guid hplain
  | refuseFile guid =>
    cases htable
    exact hend guid hplain
  | endSendFile guid =>
    cases htable
    exact hend guid hplain
  | runReturns ptr => exact h.runReturns htable
  | releaseRun ptr guid =>
    simp only [TaskTable.step] at htable
    split at htable
    · rename_i hmem
      cases htable
      exact h.releaseRun hmem
    · cases htable

/-- In every plain run the map holds exactly the open tasks. -/
theorem exact_of_plain_run (h : ReachableVia (· = new) step Plain s) :
    Exact s := by
  have hconsistent : Consistent s := by
    refine h.invariant ?_ ?_
    · rintro s rfl
      exact consistent_new
    · intro s e t hs hplain hstep
      exact hs.step hplain hstep
  exact hconsistent.exact

/-- A transfer is sent, its thread returns, and the guid is used again. -/
def samplePlainEvents : List Event :=
  [.sendFile [0x67] 0 (some [0x66]), .runReturns 0, .releaseRun 0 [0x67],
    .sendFile [0x67] 1 (some [0x66])]

theorem exact_samplePlainEvents :
    Exact ((execute step new samplePlainEvents).getD new) := by
  refine exact_of_plain_run (.step (.step (.step (.step (.init rfl)
    (e := .sendFile [0x67] 0 (some [0x66])) ?_ rfl)
    (e := .runReturns 0) ?_ rfl)
    (e := .releaseRun 0 [0x67]) ?_ rfl)
    (e := .sendFile [0x67] 1 (some [0x66])) ?_ rfl)
  · exact rfl
  · exact trivial
  · exact trivial
  · exact rfl

/-- A received file stays in the map after its end was handled. -/
theorem not_forall_exact :
    ¬∀ s, Reachable (· = new) step s → Exact s := by
  intro h
  have hreach : ∀ s, execute step new
      [.createRecieveFile [0x67] 0 [0x66], .endSendFile [0x67]] = some s →
      Reachable (· = new) step s :=
    fun s hs => reachable_of_execute rfl hs
  have hexact := (h _ (hreach _ rfl)).1 [0x67] 0
  revert hexact
  decide

end TrackedTable

end WebrtcWinXp.FileTransfer
