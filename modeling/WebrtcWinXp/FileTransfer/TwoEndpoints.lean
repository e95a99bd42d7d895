import WebrtcWinXp.FileTransfer.Dispatch
import WebrtcWinXp.FileTransfer.TaskTable
import WebrtcWinXp.FileTransfer.Wakeup

/-!
# Two endpoints

Two conductors that send each other files over a reliable ordered channel:
the calls of the application, the threads that execute `Run`, and the handlers
of `WebrtcConductor::CallbackWebrtcClient`.

A handler is a single step here; what can happen inside one is the subject of
`Wakeup`.  Blocks carry no data, and the acknowledgements of blocks, which
only report progress, are left out.
-/

namespace WebrtcWinXp.FileTransfer

open Support

inductive Side where
  | left
  | right
  deriving DecidableEq

def Side.other : Side → Side
  | left => right
  | right => left

/-- Identifies a call of `SendFile` that started a task, and the side that
made it.  The code has only guids; messages and task objects are tagged for
the statements about them. -/
structure TaskId where
  side : Side
  number : ℕ
  deriving DecidableEq

inductive FileTransferState where
  | FILE_TRANSFER_SUCESS
  | FILE_TRANSFER_FAILURE
  | FILE_TRANSFER_CANCLE
  deriving DecidableEq

/-- A `FileDataPack`, as far as the handlers read it. -/
structure Message where
  messageType : MessageID
  sUserResGuid : Str
  rUserResGuid : Str
  message : Str
  task : Option TaskId
  deriving DecidableEq

/-- A task object that is registered under the guid of the sender. -/
structure Thread where
  address : ℕ
  taskType : ThreadTaskType
  recieverGuid : Str
  forceQuitFlag : Bool
  skipFlag : Bool
  task : Option TaskId
  deriving DecidableEq

/-- A thread that executes `Run` on the object of a guid. -/
structure Run where
  guid : Str
  address : ℕ
  pc : SenderPc
  task : Option TaskId
  deriving DecidableEq

/-- A conductor.  Objects are numbered in the order they are allocated.  The
last six components record what happened to the tasks. -/
structure Endpoint where
  threadMap : StdMap Str Thread
  runs : List Run
  releaseRuns : List Str
  allocated : ℕ
  ended : List (Option TaskId)
  accepted : List (Option TaskId)
  refused : List (Option TaskId)
  cancelled : List (Option TaskId)
  matched : List (Option TaskId)
  completed : List (Option TaskId × FileTransferState)

namespace Endpoint

def new : Endpoint := ⟨.empty, [], [], 0, [], [], [], [], [], []⟩

/-- Change the object of a guid, if there is one. -/
def modifyThread (guid : Str) (f : Thread → Thread) (e : Endpoint) :
    Endpoint :=
  match e.threadMap.find guid with
  | none => e
  | some thread =>
    { e with threadMap := e.threadMap.assign guid (f thread) }

/-- `UnAttach` only raises the flag. -/
def unAttach (guid : Str) : Endpoint → Endpoint :=
  modifyThread guid fun thread => { thread with forceQuitFlag := true }

def suspendChildThread (guid : Str) : Endpoint → Endpoint :=
  modifyThread guid fun thread => { thread with skipFlag := true }

/-- `ResumeChildThread` wakes the threads that wait on the object. -/
def resumeChildThread (guid : Str) (e : Endpoint) : Endpoint :=
  match e.threadMap.find guid with
  | none => e
  | some thread =>
    { e.modifyThread guid fun thread =>
        { thread with skipFlag := false } with
      runs := e.runs.map fun run =>
        if run.address = thread.address then
          { run with pc := run.pc.wake }
        else run }

/-- The task that the object of a guid belongs to. -/
def taskOf (guid : Str) (e : Endpoint) : Option TaskId :=
  (e.threadMap.find guid).bind Thread.task

def taskTypeOf (guid : Str) (e : Endpoint) : Option ThreadTaskType :=
  (e.threadMap.find guid).map Thread.taskType

def transferFileComplete (task : Option TaskId) (state : FileTransferState)
    (e : Endpoint) : Endpoint :=
  { e with completed := e.completed ++ [(task, state)] }

end Endpoint

/-- Both endpoints, and the messages on the way to each of them. -/
structure Link where
  endpoint : Side → Endpoint
  channel : Side → List Message

namespace Link

def new : Link := ⟨fun _ => .new, fun _ => []⟩

def modify (x : Side) (f : Endpoint → Endpoint) (s : Link) : Link :=
  { s with endpoint := Function.update s.endpoint x (f (s.endpoint x)) }

/-- `SendData`: a message that is sent reaches the channel to the other
side. -/
def sendData (x : Side) (sent : Bool) (msg : Message) (s : Link) : Link :=
  if sent then
    { s with channel :=
        Function.update s.channel x.other (s.channel x.other ++ [msg]) }
  else s

/-! ## The calls of the application -/

/-- `SendFile`.  `Attach` keeps an object that is registered already, and
`Begin` starts a thread on the one that is registered. -/
def sendFile (x : Side) (filename : Str) (s : Link) : Link :=
  let e := s.endpoint x
  let thread : Thread :=
    ⟨e.allocated, .SEND_TASK, [], false, false, some ⟨x, e.allocated⟩⟩
  let threadMap := e.threadMap.insert filename thread
  let registered := (threadMap.find filename).getD thread
  s.modify x fun e =>
    { e with
      threadMap := threadMap
      allocated := e.allocated + 1
      runs := e.runs ++
        [⟨filename, registered.address, .sendCreateFile, registered.task⟩] }

def createRecieveFile (x : Side) (guid : Str) (s : Link) : Link :=
  match (s.endpoint x).threadMap.find guid with
  | some _ => s
  | none =>
    s.modify x fun e =>
      { e with
        threadMap := e.threadMap.assign guid
          ⟨e.allocated, .RECIEVE_TASK, [], false, false, none⟩
        allocated := e.allocated + 1 }

/-- `InterruptFileTask` and `RestartFileTask`: nothing is sent for a guid
that is not found. -/
def interruptFileTask (x : Side) (guid : Str) (sent : Bool) (s : Link) :
    Link :=
  match (s.endpoint x).threadMap.find guid with
  | none => s
  | some thread =>
    (s.modify x (.suspendChildThread guid)).sendData x sent
      ⟨.Interrupt_File_Transfer, guid, [], [], thread.task⟩

def restartFileTask (x : Side) (guid : Str) (sent : Bool) (s : Link) :
    Link :=
  match (s.endpoint x).threadMap.find guid with
  | none => s
  | some thread =>
    (s.modify x (.resumeChildThread guid)).sendData x sent
      ⟨.Restart_File_Transfer, guid, [], [], thread.task⟩

/-- `CancleFileTask`, which informs the other side in any case. -/
def cancleFileTask (x : Side) (guid : Str) (sent : Bool) (s : Link) : Link :=
  let task := (s.endpoint x).taskOf guid
  (s.modify x fun e =>
    { e.unAttach guid with cancelled := e.cancelled ++ [task] }).sendData x
      sent ⟨.Cancle_File_Transfer, guid, [], [], task⟩

def refuseFile (x : Side) (senderResGuid message : Str)
    (task : Option TaskId) (sent : Bool) (s : Link) : Link :=
  (s.modify x fun e =>
    { e.unAttach senderResGuid with refused := e.refused ++ [task] }).sendData
      x sent ⟨.Not_Can_Continue_Send, senderResGuid, [], message, task⟩

/-- `AcceptFile`: only a guid with a receiving task is accepted.  The guid
in the reply is blank when the output file does not open. -/
def acceptFile (x : Side) (senderResGuid message : Str)
    (task : Option TaskId) (opened sent : Bool) (s : Link) : Link :=
  if (s.endpoint x).taskTypeOf senderResGuid = some .RECIEVE_TASK then
    (s.modify x fun e =>
      { e.modifyThread senderResGuid fun thread =>
          { thread with task := task } with
        accepted := e.accepted ++ [task] }).sendData x sent
      ⟨.Can_Continue_Send, senderResGuid,
        if opened then senderResGuid else [], message, task⟩
  else s.refuseFile x senderResGuid message task sent

/-- Replace a thread that executes `Run`. -/
def setRun (x : Side) (i : ℕ) (run : Run) (s : Link) : Link :=
  s.modify x fun e => { e with runs := e.runs.set i run }

/-- `Release` sends the end of the file and starts a thread that releases
the guid. -/
def release (x : Side) (i : ℕ) (run : Run) (thread : Thread) (sent : Bool)
    (md5 : Str) (s : Link) : Link :=
  (s.modify x fun e =>
    { e with
      runs := e.runs.eraseIdx i
      releaseRuns := e.releaseRuns ++ [run.guid]
      ended := e.ended ++ [run.task] }).sendData x sent
    ⟨.End_Send_File, run.guid, thread.recieverGuid, md5, run.task⟩

/-- A step of a thread on its object.  `ok` is what `SendData` returns, or
whether `ExtractData` finds another block. -/
def runThread (x : Side) (i : ℕ) (run : Run) (thread : Thread) (ok : Bool)
    (md5 : Str) (s : Link) : Option Link :=
  let goto (pc : SenderPc) (s : Link) : Link :=
    s.setRun x i { run with pc := pc }
  match run.pc with
  | .sendCreateFile =>
    if run.guid = [] then some (goto .released s)
    else
      some ((goto (.entering (if ok then .forReply else .afterFailedSend))
        s).sendData x ok
          ⟨.Create_File, run.guid, [], [], run.task⟩)
  | .entering w => some (goto (.blocked w) s)
  | .blocked _ => none
  | .woken .afterFailedSend => some (goto (.entering .forReply) s)
  | .woken .forReply => some (goto .checkReciever s)
  | .woken .whileSkipped => some (goto .testForceQuit s)
  | .checkReciever =>
    some (goto
      (if thread.recieverGuid ≠ [] then .testForceQuit else .released) s)
  | .testForceQuit =>
    some (goto
      (if thread.forceQuitFlag then .released else .extractData) s)
  | .extractData => some (goto (if ok then .sendBlock else .released) s)
  | .sendBlock =>
    if ok then
      some ((goto .testSkipFlag s).sendData x true
        ⟨.Send_File, run.guid, thread.recieverGuid, [], run.task⟩)
    else
      some ((goto .released s).modify x
        (.transferFileComplete run.task .FILE_TRANSFER_FAILURE))
  | .testSkipFlag =>
    some (goto
      (if thread.skipFlag then .entering .whileSkipped
        else .testForceQuit) s)
  | .released => some (s.release x i run thread ok md5)

/-- A thread whose object was deleted has no defined step. -/
def runStep (x : Side) (i : ℕ) (ok : Bool) (md5 : Str) (s : Link) :
    Option Link := do
  let run ← (s.endpoint x).runs[i]?
  let thread ← (s.endpoint x).threadMap.find run.guid
  if thread.address = run.address then s.runThread x i run thread ok md5
  else none

def wakeRun (x : Side) (i : ℕ) (s : Link) : Option Link := do
  let run ← (s.endpoint x).runs[i]?
  some (s.setRun x i { run with pc := run.pc.wake })

/-- `ReleaseRun` deletes the object of a guid. -/
def releaseRun (x : Side) (i : ℕ) (s : Link) : Option Link := do
  let guid ← (s.endpoint x).releaseRuns[i]?
  some (s.modify x fun e =>
    { e with
      releaseRuns := e.releaseRuns.eraseIdx i
      threadMap := e.threadMap.erase guid })

/-- `END_SEND_FILE`, with the checksum of the file that was received. -/
def endSendFile (x : Side) (msg : Message) (fileMd5 : Str) (sent : Bool)
    (s : Link) : Link :=
  let equal : Bool := fileMd5 = msg.message
  ((s.sendData x sent { msg with
      messageType :=
        if equal then .Succese_Recieve_File else .Failure_Recieve_File
    }).modify x (.unAttach msg.sUserResGuid)).modify x fun e =>
      { e.transferFileComplete msg.task
          (if equal then .FILE_TRANSFER_SUCESS
            else .FILE_TRANSFER_FAILURE) with
        matched := if equal then e.matched ++ [msg.task] else e.matched }

/-- `CallbackWebrtcClient`.  What opening the output file, the checksum of
the received file and `SendData` give comes with the call. -/
def callbackWebrtcClient (x : Side) (id : CallbackID) (msg : Message)
    (opened : Bool) (fileMd5 : Str) (sent : Bool) (s : Link) : Link :=
  let guid := msg.sUserResGuid
  match id with
  | .CREATE_FILE_CHANNEL =>
    s.acceptFile x guid msg.message msg.task opened sent
  | .RECIEVE_FILE_CHANNEL => s
  | .CAN_SEND_FILE =>
    (s.modify x (.modifyThread guid fun thread =>
      { thread with recieverGuid := msg.rUserResGuid })).modify x
        (.resumeChildThread guid)
  | .SEND_FILE_FAILURE =>
    s.modify x (.transferFileComplete msg.task .FILE_TRANSFER_FAILURE)
  | .SEND_FILE_SUCCESS =>
    s.modify x (.transferFileComplete msg.task .FILE_TRANSFER_SUCESS)
  | .INTERRUPT_FILE_TRANSFER_TASK =>
    if (s.endpoint x).taskTypeOf guid = some .SEND_TASK then
      s.modify x (.suspendChildThread guid)
    else s
  | .RESTART_FILE_TRANSFER_TASK =>
    if (s.endpoint x).taskTypeOf guid = some .SEND_TASK then
      s.modify x (.resumeChildThread guid)
    else s
  | .CANCLE_FILE_TRANSFER_TASK =>
    (s.modify x (.unAttach guid)).modify x
      (.transferFileComplete msg.task .FILE_TRANSFER_CANCLE)
  | .END_SEND_FILE => s.endSendFile x msg fileMd5 sent

/-- A side takes its next message, if the dispatcher knows its kind. -/
def deliver (x : Side) (opened : Bool) (fileMd5 : Str) (sent : Bool)
    (s : Link) : Option Link :=
  match s.channel x with
  | [] => none
  | msg :: rest =>
    let s := { s with channel := Function.update s.channel x rest }
    match fileCallback msg.messageType.code with
    | none => some s
    | some id => some (s.callbackWebrtcClient x id msg opened fileMd5 sent)

inductive Event where
  | sendFile (x : Side) (filename : Str)
  | createRecieveFile (x : Side) (guid : Str)
  | interruptFileTask (x : Side) (guid : Str) (sent : Bool)
  | restartFileTask (x : Side) (guid : Str) (sent : Bool)
  | cancleFileTask (x : Side) (guid : Str) (sent : Bool)
  | acceptFile (x : Side) (guid message : Str) (opened sent : Bool)
  | refuseFile (x : Side) (guid message : Str) (sent : Bool)
  | run (x : Side) (i : ℕ) (ok : Bool) (md5 : Str)
  | spuriousWakeup (x : Side) (i : ℕ)
  | releaseRun (x : Side) (i : ℕ)
  | deliver (x : Side) (opened : Bool) (fileMd5 : Str) (sent : Bool)
  deriving DecidableEq

/-- The application may also accept or refuse a guid by itself. -/
def step (s : Link) : Event → Option Link
  | .sendFile x filename => some (s.sendFile x filename)
  | .createRecieveFile x guid => some (s.createRecieveFile x guid)
  | .interruptFileTask x guid sent => some (s.interruptFileTask x guid sent)
  | .restartFileTask x guid sent => some (s.restartFileTask x guid sent)
  | .cancleFileTask x guid sent => some (s.cancleFileTask x guid sent)
  | .acceptFile x guid message opened sent =>
    some (s.acceptFile x guid message ((s.endpoint x).taskOf guid) opened
      sent)
  | .refuseFile x guid message sent =>
    some (s.refuseFile x guid message ((s.endpoint x).taskOf guid) sent)
  | .run x i ok md5 => s.runStep x i ok md5
  | .spuriousWakeup x i => s.wakeRun x i
  | .releaseRun x i => s.releaseRun x i
  | .deliver x opened fileMd5 sent => s.deliver x opened fileMd5 sent

end Link

end WebrtcWinXp.FileTransfer
