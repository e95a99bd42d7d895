import WebrtcWinXp.FileTransfer.Registry
import WebrtcWinXp.FileTransfer.Wire

/-!
# Dispatching received packets

`ClientOutterInterfaceBase::RecieveDataChannel` and, of the handlers it calls,
the copies of `messageSize` bytes.
-/

namespace WebrtcWinXp.FileTransfer

open Support

/-- `ConductorPeerConnection`: the guids of the resources that were described
to it, and its iterator. -/
structure ConductorPeerConnection where
  resVector : List Str
  resourceIterator : Registry

namespace ConductorPeerConnection

def new : ConductorPeerConnection := ⟨[], .new⟩

/-- `CreateDataRepository` describes the resource by the guid the iterator
returns, which may be blank. -/
def createDataRepository (resdes : FileResDescription)
    (data : RepositoryPtr) (file : Option (List UInt8))
    (c : ConductorPeerConnection) :
    Option (ConductorPeerConnection × Str) := do
  let (resourceIterator, guid) ←
    c.resourceIterator.createDataRepository resdes data file
  some (⟨c.resVector ++ [guid], resourceIterator⟩, guid)

/-- `SaveFileData`, which tests `IsExitRes` before `Save`. -/
def saveFileData (guid : Str) (data : DataChannelTransfer)
    (c : ConductorPeerConnection) : Option ConductorPeerConnection :=
  if guid ∈ c.resVector then
    (c.resourceIterator.step (.push guid (some data))).map fun registry =>
      { c with resourceIterator := registry }
  else some c

/-- Whether `SaveFileData` reaches a `PushBack` that writes to its stream. -/
def writes (guid : Str) (c : ConductorPeerConnection) : Bool :=
  guid ∈ c.resVector &&
    match (c.resourceIterator.dataMap.find guid).join.bind
        c.resourceIterator.heap.find with
    | some (.receiver r) => r.writeStream.isOpen && r.writeStream.good
    | _ => false

end ConductorPeerConnection

/-- The messages to the conductor that a `FileDataPack` goes with. -/
inductive CallbackID where
  | CREATE_FILE_CHANNEL
  | RECIEVE_FILE_CHANNEL
  | CAN_SEND_FILE
  | SEND_FILE_FAILURE
  | SEND_FILE_SUCCESS
  | INTERRUPT_FILE_TRANSFER_TASK
  | RESTART_FILE_TRANSFER_TASK
  | CANCLE_FILE_TRANSFER_TASK
  | END_SEND_FILE
  deriving DecidableEq

/-- What the dispatcher calls. -/
inductive Callback where
  | recieveTextMessage
  | file (id : CallbackID) (msg : FileDataPack)
  | shakeAckPacket (msg : FileDataBase)
  deriving DecidableEq

/-- The inner `switch`; a refusal is not dispatched. -/
def fileCallback (messageType : UInt32) : Option CallbackID :=
  if messageType = MessageID.Create_File.code then
    some .CREATE_FILE_CHANNEL
  else if messageType = MessageID.Send_File.code then
    some .RECIEVE_FILE_CHANNEL
  else if messageType = MessageID.Can_Continue_Send.code then
    some .CAN_SEND_FILE
  else if messageType = MessageID.Failure_Recieve_File.code then
    some .SEND_FILE_FAILURE
  else if messageType = MessageID.Succese_Recieve_File.code then
    some .SEND_FILE_SUCCESS
  else if messageType = MessageID.Interrupt_File_Transfer.code then
    some .INTERRUPT_FILE_TRANSFER_TASK
  else if messageType = MessageID.Restart_File_Transfer.code then
    some .RESTART_FILE_TRANSFER_TASK
  else if messageType = MessageID.Cancle_File_Transfer.code then
    some .CANCLE_FILE_TRANSFER_TASK
  else if messageType = MessageID.End_Send_File.code then
    some .END_SEND_FILE
  else none

/-- What is done with a received buffer: the ranges of it that are read, the
call that is made and whether `Deserialize` accepted the packet it is made
with, and the counts of the copies out of the message array. -/
structure Receipt where
  reads : List Access
  callback : Option Callback
  accepted : Bool
  copies : List ℤ

/-- `RecieveText`, which the client calls for a text message. -/
def recieveText (uninitialised : FileResourceParam) (b : Buffer) :
    Deserialized FileDataPack × List ℤ :=
  if b.size = 0 then (⟨0, .new uninitialised, []⟩, [])
  else
    let buffer := FileDataPack.deserialize b (.new uninitialised)
    (buffer, [buffer.msg.data.messageSize.toInt])

/-- The copies of the handlers: `PushBack`, and the assignment of the packet
when the file has ended. -/
def copiesOf (c : ConductorPeerConnection) (beyond : Str) :
    Callback → List ℤ
  | .file .RECIEVE_FILE_CHANNEL msg =>
    if c.writes (msg.owerInfo.rUserString beyond) then
      [msg.data.messageSize.toInt]
    else []
  | .file .END_SEND_FILE msg => [msg.data.messageSize.toInt]
  | _ => []

/-- `RecieveDataChannel`.  Arguments are what `owerInfo` holds in a packet
that was just constructed and what follows it in memory. -/
def recieveDataChannel (c : ConductorPeerConnection)
    (uninitialised : FileResourceParam) (beyond : Str) (b : Buffer) :
    Receipt :=
  if dwordAt b 0 = FILEDATABASE then
    let tempMsg := FileDataBase.deserialize b ⟨0xFFFFFFFF, uninitialised⟩
    let reads := ⟨0, 4⟩ :: tempMsg.reads
    if tempMsg.msg.messageId = ResType.Text_Type.code then
      let (pack, copies) := recieveText uninitialised b
      ⟨reads ++ pack.reads, some .recieveTextMessage, pack.result ≠ 0,
        copies⟩
    else if tempMsg.msg.messageId = ResType.File_Type.code then
      let msg := FileDataPack.deserialize b (.new uninitialised)
      let callback := (fileCallback msg.msg.data.messageType).map
        (.file · msg.msg)
      ⟨reads ++ msg.reads, callback, msg.result ≠ 0,
        (callback.map (copiesOf c beyond)).getD []⟩
    else if tempMsg.msg.messageId = ResType.File_Type_Shake_Pack.code then
      ⟨reads, some (.shakeAckPacket tempMsg.msg), tempMsg.result ≠ 0, []⟩
    else ⟨reads, none, tempMsg.result ≠ 0, []⟩
  else ⟨[⟨0, 4⟩], none, false, []⟩

/-- All reads and copies are in bounds, and nothing is called with a packet
that was not accepted. -/
structure Receipt.Safe (b : Buffer) (r : Receipt) : Prop where
  reads : ∀ a ∈ r.reads, b.Inside a
  copies : ∀ count ∈ r.copies, FitsMessage count
  accepted : r.callback.isSome → r.accepted

variable {c : ConductorPeerConnection} {uninitialised : FileResourceParam}
  {beyond : Str} {b : Buffer}

theorem messageId_deserialize {msg : FileDataBase} (hsize : 100 ≤ b.size) :
    (FileDataBase.deserialize b msg).msg.messageId = dwordAt b 8 := by
  have hsize : ¬b.size < 100 := by omega
  by_cases hlength : dwordAt b 4 = 92 <;>
    simp [FileDataBase.deserialize, hsize, hlength]

theorem callback_serialize (c : ConductorPeerConnection)
    (uninitialised : FileResourceParam) (beyond : Str)
    {pack : FileDataPack} (memory : ℕ → UInt8)
    (hid : pack.messageId = ResType.File_Type.code) :
    (recieveDataChannel c uninitialised beyond
      (.ofList (pack.serialize 3000) memory)).callback =
      (fileCallback pack.data.messageType).map (.file · pack) := by
  have hsize : 100 ≤ (Buffer.ofList (pack.serialize 3000) memory).size := by
    simp [Buffer.ofList]
  simp [recieveDataChannel, FileDataPack.type_serialize,
    messageId_deserialize hsize, FileDataPack.messageId_serialize, hid,
    FileDataPack.deserialize_serialize, ResType.code]

end WebrtcWinXp.FileTransfer
