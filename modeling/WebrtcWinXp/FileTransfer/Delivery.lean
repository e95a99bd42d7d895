import WebrtcWinXp.FileTransfer.Dispatch

/-!
# Delivering a file

The block loop of `P2PThreadFile::Run` on one side, the handling of the
packets on the other, and a reliable ordered channel between them.  The task
is not cancelled, so `m_forceQuitFlag` stays false and is left out.
-/

namespace WebrtcWinXp.FileTransfer

open Support

/-- A file to be sent, and the addresses of the two repositories that are
allocated for it. -/
structure FileTask where
  guid : Str
  senderPath : Str
  file : List UInt8
  goalPath : Str
  senderPtr : RepositoryPtr
  receiverPtr : RepositoryPtr

/-- Where the block loop is. -/
inductive BlockPc where
  | extractData
  | sendBlock (secondPtr : DataChannelTransfer)
  | testSkipFlag
  | blocked
  | released
  deriving DecidableEq

/-- Both sides of an accepted task and the packets between them. -/
structure Delivery where
  sender : ConductorPeerConnection
  receiver : ConductorPeerConnection
  senderGuid : Str
  recieverGuid : Str
  pc : BlockPc
  skipFlag : Bool
  channel : List (List UInt8)
  ended : Bool

/-- What is in memory where nothing was written: an uninitialised
`owerInfo` and what follows it. -/
structure Memory where
  owerInfo : FileResourceParam
  beyond : Str

/-- `CreateSendFile`, which gives the new repository the guid before it is
created. -/
def createSendFile (task : FileTask) (c : ConductorPeerConnection) :
    Option ConductorPeerConnection := do
  let resourceIterator ← c.resourceIterator.step
    (.newRepository task.senderPtr
      (.sender { SenderRepository.new task.senderPath with
        resGuid := task.guid }))
  let (c, _) ← ConductorPeerConnection.createDataRepository
    ⟨task.guid, task.senderPath⟩ task.senderPtr (some task.file)
    { c with resourceIterator := resourceIterator }
  some c

/-- `RecieveFile` under the guid of the sender, whose file opens. -/
def recieveFile (task : FileTask) (senderResGuid : Str)
    (c : ConductorPeerConnection) :
    Option (ConductorPeerConnection × Str) := do
  let resourceIterator ← c.resourceIterator.step
    (.newRepository task.receiverPtr (.receiver .new))
  ConductorPeerConnection.createDataRepository
    ⟨senderResGuid, task.goalPath⟩ task.receiverPtr (some [])
    { c with resourceIterator := resourceIterator }

/-- The sender announces its file, the receiver creates a repository and
replies, and the sender takes the reply: both guids are in order.  The
arguments are the memories of the two packets and the announced size. -/
def acceptTask (task : FileTask) (header reply : Memory) (count : ℤ)
    (sender receiver : ConductorPeerConnection) : Option Delivery := do
  let sender ← createSendFile task sender
  let owerInfo := header.owerInfo.setSuserResGuid task.guid
  let senderResGuid := owerInfo.sUserString header.beyond
  let (receiver, resGuid) ← recieveFile task senderResGuid receiver
  let resourceIterator ← receiver.resourceIterator.step
    (.setResBlockSize resGuid count)
  let owerInfo ← reply.owerInfo.setRuserResGuid resGuid
  let owerInfo := owerInfo.setSuserResGuid senderResGuid
  if owerInfo.sUserString reply.beyond = task.guid ∧
      owerInfo.rUserString reply.beyond ≠ [] then
    some
      { sender := sender
        receiver := { receiver with resourceIterator := resourceIterator }
        senderGuid := task.guid
        recieverGuid := owerInfo.rUserString reply.beyond
        pc := .extractData
        skipFlag := false
        channel := []
        ended := false }
  else none

/-! ## The two sides at work -/

/-- The assignment of a packet, which copies `messageSize` bytes. -/
def DataChannelTransfer.assigned (value : DataChannelTransfer) :
    DataChannelTransfer :=
  { value with
    message := Octets.ofStr PER_BLOCK_SIZE
      (value.message.1.take value.messageSize.toInt.toNat) }

def blockPack (owerInfo : FileResourceParam) (recieverGuid senderGuid : Str)
    (secondPtr : DataChannelTransfer) : Option FileDataPack := do
  let owerInfo ← owerInfo.setRuserResGuid recieverGuid
  some
    { messageId := ResType.File_Type.code
      owerInfo := owerInfo.setSuserResGuid senderGuid
      data := { secondPtr.assigned with
        messageType := MessageID.Send_File.code } }

/-- The packet of `Release`, which carries the checksum. -/
def endPack (owerInfo : FileResourceParam) (senderGuid recieverGuid : Str)
    (md5 : Str) : Option FileDataPack := do
  let owerInfo ←
    (owerInfo.setSuserResGuid senderGuid).setRuserResGuid recieverGuid
  some
    { messageId := ResType.File_Type.code
      owerInfo := owerInfo
      data :=
        { (FileDataPack.new owerInfo).data with
          messageType := MessageID.End_Send_File.code
          packetIndex := 0
          message := Octets.ofStr PER_BLOCK_SIZE md5 } }

namespace Delivery

/-- `Release` up to the message, with the checksum of the file. -/
def release (owerInfo : FileResourceParam) (md5 : Str) (s : Delivery) :
    Option Delivery := do
  let (resourceIterator, md5) ←
    s.sender.resourceIterator.getResourceMd5 s.senderGuid md5
  let pack ← endPack owerInfo s.senderGuid s.recieverGuid md5
  some { s with
    sender := { s.sender with resourceIterator := resourceIterator }
    pc := .released
    channel := s.channel ++ [pack.serialize 3000] }

def senderStep (owerInfo : FileResourceParam) (md5 : Str) (s : Delivery) :
    Option Delivery :=
  match s.pc with
  | .extractData => do
      let (resourceIterator, reply) ←
        s.sender.resourceIterator.call (.pop s.senderGuid)
      let s := { s with
        sender := { s.sender with resourceIterator := resourceIterator } }
      match reply with
      | .packet (some secondPtr) => some { s with pc := .sendBlock secondPtr }
      | _ => s.release owerInfo md5
  | .sendBlock secondPtr => do
      let pack ←
        blockPack owerInfo s.recieverGuid s.senderGuid secondPtr
      some { s with
        pc := .testSkipFlag
        channel := s.channel ++ [pack.serialize 3000] }
  | .testSkipFlag =>
    some { s with pc := if s.skipFlag then .blocked else .extractData }
  | .blocked | .released => none

/-- The receiver takes the next packet.  That the end of the file was
handled is only recorded. -/
def deliver (memory : Memory) (beyond : ℕ → UInt8) (s : Delivery) :
    Option Delivery :=
  match s.channel with
  | [] => none
  | bytes :: channel =>
    let s := { s with channel := channel }
    match (recieveDataChannel s.receiver memory.owerInfo memory.beyond
        (.ofList bytes beyond)).callback with
    | some (.file .RECIEVE_FILE_CHANNEL msg) => do
        let receiver ← s.receiver.saveFileData
          (msg.owerInfo.rUserString memory.beyond) msg.data
        some { s with receiver := receiver }
    | some (.file .END_SEND_FILE _) => some { s with ended := true }
    | _ => some s

/-- The steps of both sides; `Resume` clears the flag and then notifies, and
a spurious wake-up is a notification too. -/
inductive Event where
  | sender (owerInfo : FileResourceParam) (md5 : Str)
  | suspend
  | clearSkipFlag
  | notify
  | deliver (memory : Memory) (beyond : ℕ → UInt8)

def step (s : Delivery) : Event → Option Delivery
  | .sender owerInfo md5 => s.senderStep owerInfo md5
  | .suspend => some { s with skipFlag := true }
  | .clearSkipFlag => some { s with skipFlag := false }
  | .notify =>
    some { s with pc := if s.pc = .blocked then .extractData else s.pc }
  | .deliver memory beyond => s.deliver memory beyond

/-- In every state that is reached, the output of the new repository is a
prefix of the file, and all of it once the end was handled; and the end can
still be reached. -/
def Delivers (task : FileTask) (start : Delivery) : Prop :=
  ∀ s, Reachable (· = start) step s →
    (∃ q, s.receiver.resourceIterator.heap.find task.receiverPtr =
        some (.receiver q) ∧
      q.writeStream.written <+: task.file ∧
      (s.ended →
        q.writeStream.written = task.file ∧
          q.finishTaskSize = task.file.length)) ∧
    ∃ t, Reachable (· = s) step t ∧ t.ended

/-- The guid is new to the receiver, and the sender's repository has its
whole file before it. -/
structure Fresh (task : FileTask) (s : Delivery) : Prop where
  sender : ∃ ptr r,
    s.sender.resourceIterator.dataMap.find task.guid = some (some ptr) ∧
      s.sender.resourceIterator.heap.find ptr = some (.sender r) ∧
      r.readFile = ⟨true, true, task.file⟩
  receiver : s.receiver.resourceIterator.dataMap.find task.guid =
    some (some task.receiverPtr)

end Delivery

/-! ## What was accepted -/

section Accepted

variable {task : FileTask} {c c' : ConductorPeerConnection}

theorem step_newRepository {registry registry' : Registry}
    {ptr : RepositoryPtr} {repository : DataRepository}
    (h : registry.step (.newRepository ptr repository) = some registry') :
    registry' =
      { registry with heap := registry.heap.assign ptr repository } := by
  simp only [Registry.step, Registry.call] at h
  split at h
  · cases h
  · cases h
    rfl

theorem recieveFile_spec {senderResGuid resGuid : Str}
    (h : recieveFile task senderResGuid c = some (c', resGuid)) :
    (resGuid = [] ∨ resGuid = senderResGuid) ∧
      resGuid ∈ c'.resVector ∧
      c'.resourceIterator.dataMap =
        c.resourceIterator.dataMap.insert resGuid
          (some task.receiverPtr) ∧
      ∃ q, c'.resourceIterator.heap.find task.receiverPtr =
          some (.receiver q) ∧
        q.IsWriting ∧ q.writeStream.written = [] ∧ q.finishTaskSize = 0 := by
  simp only [recieveFile, Option.bind_eq_bind, Option.bind_eq_some_iff]
    at h
  obtain ⟨registry, hnew, hcreate⟩ := h
  have hregistry := step_newRepository hnew
  subst hregistry
  simp only [ConductorPeerConnection.createDataRepository,
    Option.bind_eq_bind, Option.bind_eq_some_iff, Option.some.injEq,
    Prod.mk.injEq, Prod.exists] at hcreate
  obtain ⟨registry, guid, hcreate, rfl, rfl⟩ := hcreate
  obtain ⟨repository, hrepository, hguid, rfl⟩ :=
    Registry.createDataRepository_eq_some hcreate
  obtain rfl : DataRepository.receiver .new = repository := by
    simpa using hrepository
  refine ⟨?_, by simp, rfl, _, StdMap.find_assign_self, ?_, ?_, ?_⟩
  · rw [hguid, DataRepository.getGUID_create]
    split
    · exact Or.inr rfl
    · exact Or.inl rfl
  · exact ⟨rfl, rfl⟩
  · rfl
  · rfl

theorem createSendFile_spec (h : createSendFile task c = some c')
    (hunused : c.resourceIterator.dataMap.find task.guid = none)
    (hpath : task.senderPath ≠ []) :
    ∃ r, c'.resourceIterator.dataMap.find task.guid =
        some (some task.senderPtr) ∧
      c'.resourceIterator.heap.find task.senderPtr = some (.sender r) ∧
      r.readFile = ⟨true, true, task.file⟩ := by
  simp only [createSendFile, Option.bind_eq_bind, Option.bind_eq_some_iff,
    Option.some.injEq, Prod.exists, exists_and_right, exists_eq_right] at h
  obtain ⟨registry, hnew, guid, hcreate⟩ := h
  have hregistry := step_newRepository hnew
  subst hregistry
  simp only [ConductorPeerConnection.createDataRepository,
    Option.bind_eq_bind, Option.bind_eq_some_iff, Option.some.injEq,
    Prod.mk.injEq, Prod.exists] at hcreate
  obtain ⟨registry, guid, hcreate, rfl, rfl⟩ := hcreate
  obtain ⟨repository, hrepository, hguid', rfl⟩ :=
    Registry.createDataRepository_eq_some hcreate
  obtain rfl : DataRepository.sender
      { SenderRepository.new task.senderPath with resGuid := task.guid } =
      repository := by
    simpa using hrepository
  have hopens : DataRepository.Opens ⟨task.guid, task.senderPath⟩
      (some task.file) (.sender
        { SenderRepository.new task.senderPath with
          resGuid := task.guid }) :=
    ⟨hpath, Or.inr rfl⟩
  rw [DataRepository.getGUID_create, if_pos hopens] at hguid'
  subst hguid'
  refine ⟨_, ?_, StdMap.find_assign_self, rfl⟩
  simp only [StdMap.insert_of_find_eq_none hunused,
    StdMap.find_assign_self]

variable {s : Delivery} {header reply : Memory} {count : ℤ}
  {sender receiver : ConductorPeerConnection}

theorem acceptTask_spec
    (h : acceptTask task header reply count sender receiver = some s) :
    task.guid ≠ [] ∧ cString task.guid = task.guid ∧
      task.guid.length < 40 ∧
      s.senderGuid = task.guid ∧ s.recieverGuid = task.guid ∧
      s.pc = .extractData ∧ s.channel = [] ∧ s.ended = false ∧
      createSendFile task sender = some s.sender ∧
      ∃ c, recieveFile task task.guid receiver = some (c, task.guid) ∧
        s.receiver.resVector = c.resVector ∧
        c.resourceIterator.step (.setResBlockSize task.guid count) =
          some s.receiver.resourceIterator := by
  simp only [acceptTask, Option.bind_eq_bind, Option.bind_eq_some_iff,
    Prod.exists] at h
  obtain ⟨sender', hsend, c, resGuid, hrecieve, registry, hcount, owerInfo,
    hreply, h⟩ := h
  split at h
  · rename_i hvalid
    cases h
    obtain ⟨hfound, hreciever⟩ := hvalid
    obtain ⟨hresGuid, -⟩ := recieveFile_spec hrecieve
    have hstring := FileResourceParam.cString_sUserString
      (p := header.owerInfo.setSuserResGuid task.guid) header.beyond
    generalize (header.owerInfo.setSuserResGuid task.guid).sUserString
      header.beyond = senderResGuid at *
    rcases hresGuid with rfl | rfl
    · obtain ⟨-, rfl⟩ := FileResourceParam.setRuserResGuid_eq_some hreply
      exact absurd (FileResourceParam.rUserString_setSuserResGuid_of_blank
        reply.beyond rfl) hreciever
    · have hlength := (FileResourceParam.setRuserResGuid_eq_some hreply).1
      rw [FileResourceParam.sUserString_setSuserResGuid reply.beyond hlength,
        hstring] at hfound
      have hread : (owerInfo.setSuserResGuid resGuid).rUserString
          reply.beyond = resGuid := by
        rw [FileResourceParam.setSuserResGuid_of_short hlength]
        exact (FileResourceParam.rUserString_setRuserResGuid reply.beyond
          hreply).trans hstring
      rw [hread] at hreciever
      subst hfound
      rw [hstring] at hlength
      exact ⟨hreciever, hstring, hlength, rfl, hread, rfl, rfl, rfl, hsend,
        c, hrecieve, rfl, hcount⟩
  · cases h

end Accepted

section Packets

variable {guid : Str}

/-- A block on its way to the repository under the guid. -/
structure IsBlock (guid : Str) (pack : FileDataPack) : Prop where
  messageId : pack.messageId = ResType.File_Type.code
  messageType : pack.data.messageType = MessageID.Send_File.code
  guid : ∀ beyond, pack.owerInfo.rUserString beyond = guid
  fits : FitsMessage pack.data.messageSize.toInt

structure IsEnd (pack : FileDataPack) : Prop where
  messageId : pack.messageId = ResType.File_Type.code
  messageType : pack.data.messageType = MessageID.End_Send_File.code

theorem payload_assigned {data : DataChannelTransfer}
    (hfits : FitsMessage data.messageSize.toInt) :
    data.assigned.payload = data.payload := by
  have hmessage : data.message.1.length = PER_BLOCK_SIZE := data.message.2
  obtain ⟨hnonneg, hle⟩ := hfits
  have hlength : data.payload.length = data.messageSize.toInt.toNat := by
    rw [DataChannelTransfer.payload, List.length_take, hmessage]
    omega
  have htake : data.payload.take PER_BLOCK_SIZE = data.payload :=
    List.take_of_length_le (by omega)
  simp only [DataChannelTransfer.assigned, DataChannelTransfer.payload,
    Octets.ofStr]
  rw [← DataChannelTransfer.payload, htake, ← hlength]
  exact List.take_left

theorem blockPack_spec (owerInfo : FileResourceParam)
    (hguid : cString guid = guid) (hlength : guid.length < 40)
    {data : DataChannelTransfer}
    (hfits : FitsMessage data.messageSize.toInt) :
    ∃ pack, blockPack owerInfo guid guid data = some pack ∧
      IsBlock guid pack ∧ pack.data.payload = data.payload := by
  have hset : owerInfo.setRuserResGuid guid = some
      { owerInfo with rUserResGuid := Octets.ofStr 40 guid } := by
    simp [FileResourceParam.setRuserResGuid, hguid, hlength]
  have hshort : (cString guid).length < 40 := by
    rw [hguid]
    exact hlength
  have hpack : blockPack owerInfo guid guid data = some
      { messageId := ResType.File_Type.code
        owerInfo := FileResourceParam.setSuserResGuid guid
          { owerInfo with rUserResGuid := Octets.ofStr 40 guid }
        data := { data.assigned with
          messageType := MessageID.Send_File.code } } := by
    simp [blockPack, hset]
  refine ⟨_, hpack, ⟨rfl, rfl, fun beyond => ?_, hfits⟩,
    payload_assigned hfits⟩
  rw [FileResourceParam.setSuserResGuid_of_short hshort]
  exact cString_ofStr hguid hlength beyond

theorem endPack_spec (owerInfo : FileResourceParam) (md5 : Str)
    (hguid : cString guid = guid) (hlength : guid.length < 40) :
    ∃ pack, endPack owerInfo guid guid md5 = some pack ∧ IsEnd pack := by
  have hset : (owerInfo.setSuserResGuid guid).setRuserResGuid guid = some
      { owerInfo.setSuserResGuid guid with
        rUserResGuid := Octets.ofStr 40 guid } := by
    simp [FileResourceParam.setRuserResGuid, hguid, hlength]
  exact ⟨_, by simp only [endPack, hset]; rfl, rfl, rfl⟩

end Packets

/-! ## The file in transit -/

namespace Delivery

/-- The block that has left the repository but not the thread. -/
def pending : BlockPc → List UInt8
  | .sendBlock secondPtr => secondPtr.payload
  | _ => []

/-- How far the thread is, and what the channel holds besides blocks. -/
inductive Phase (s : Delivery) (remaining : List UInt8)
    (blocks : List FileDataPack) : Prop where
  | sending (hpc : s.pc ≠ .released) (hended : s.ended = false)
      (hchannel : s.channel = blocks.map (·.serialize 3000))
  | closing (hpc : s.pc = .released) (hended : s.ended = false)
      (hremaining : remaining = []) {pack : FileDataPack} (hend : IsEnd pack)
      (hchannel : s.channel =
        blocks.map (·.serialize 3000) ++ [pack.serialize 3000])
  | done (hpc : s.pc = .released) (hended : s.ended = true)
      (hremaining : remaining = []) (hblocks : blocks = [])
      (hchannel : s.channel = [])

/-- The output, the blocks in the channel, the block in the thread and the
rest of the input make up the file. -/
structure InTransit (task : FileTask) (s : Delivery) (r : SenderRepository)
    (q : ReceiverRepository) (blocks : List FileDataPack) : Prop where
  senderGuid : s.senderGuid = task.guid
  recieverGuid : s.recieverGuid = task.guid
  source : ∃ ptr,
    s.sender.resourceIterator.dataMap.find task.guid = some (some ptr) ∧
      s.sender.resourceIterator.heap.find ptr = some (.sender r)
  target : s.receiver.resourceIterator.dataMap.find task.guid =
    some (some task.receiverPtr)
  output : s.receiver.resourceIterator.heap.find task.receiverPtr =
    some (.receiver q)
  listed : task.guid ∈ s.receiver.resVector
  writing : q.IsWriting
  isBlock : ∀ pack ∈ blocks, IsBlock task.guid pack
  phase : Phase s r.remaining blocks
  fits : ∀ data, s.pc = .sendBlock data →
    FitsMessage data.messageSize.toInt
  content : q.writeStream.written ++
    ((blocks.map (·.data.payload)).flatten ++
      (pending s.pc ++ r.remaining)) = task.file
  finished : q.finishTaskSize = q.writeStream.written.length

variable {task : FileTask} {s t : Delivery} {r : SenderRepository}
  {q : ReceiverRepository} {blocks : List FileDataPack}

theorem InTransit.sending (h : InTransit task s r q blocks)
    (hpc : s.pc ≠ .released) :
    s.ended = false ∧ s.channel = blocks.map (·.serialize 3000) := by
  cases h.phase with
  | sending _ hended hchannel => exact ⟨hended, hchannel⟩
  | closing hpc' => exact absurd hpc' hpc
  | done hpc' => exact absurd hpc' hpc

theorem InTransit.setSource (h : InTransit task s r q blocks)
    {ptr : RepositoryPtr}
    (hptr : s.sender.resourceIterator.dataMap.find task.guid =
      some (some ptr))
    (r' : SenderRepository) (hremaining : r'.remaining = r.remaining) :
    InTransit task { s with
      sender := { s.sender with
        resourceIterator := { s.sender.resourceIterator with
          heap := s.sender.resourceIterator.heap.assign ptr
            (.sender r') } } } r' q blocks := by
  refine ⟨h.senderGuid, h.recieverGuid,
    ⟨ptr, hptr, StdMap.find_assign_self⟩, h.target, h.output, h.listed,
    h.writing, h.isBlock, ?_, h.fits, ?_, h.finished⟩
  · rw [hremaining]
    cases h.phase with
    | sending hpc hended hchannel => exact .sending hpc hended hchannel
    | closing hpc hended hremaining hend hchannel =>
      exact .closing hpc hended hremaining hend hchannel
    | done hpc hended hremaining hblocks hchannel =>
      exact .done hpc hended hremaining hblocks hchannel
  · rw [hremaining]
    exact h.content

theorem InTransit.release (h : InTransit task s r q blocks)
    (hguid : cString task.guid = task.guid) (hlength : task.guid.length < 40)
    (hpc : s.pc = .extractData) (hremaining : r.remaining = [])
    (owerInfo : FileResourceParam) (md5 : Str) :
    ∃ t, s.release owerInfo md5 = some t ∧
      InTransit task t { r with resMd5 := md5 } q blocks ∧
      t.pc = .released := by
  obtain ⟨ptr, hptr, hr⟩ := h.source
  obtain ⟨hended, hchannel⟩ := h.sending (by rw [hpc]; decide)
  have hmd5 := Registry.getResourceMd5_of_find md5 hptr hr
  obtain ⟨pack, hpack, hend⟩ := endPack_spec owerInfo md5 hguid hlength
  have hmoved := h.setSource hptr { r with resMd5 := md5 } rfl
  refine ⟨{ s with
      sender := { s.sender with
        resourceIterator := { s.sender.resourceIterator with
          heap := s.sender.resourceIterator.heap.assign ptr
            (.sender { r with resMd5 := md5 }) } }
      pc := .released
      channel := s.channel ++ [pack.serialize 3000] }, ?_, ?_, rfl⟩
  · simp only [Delivery.release, h.senderGuid, h.recieverGuid, hmd5,
      Option.bind_eq_bind, Option.bind_some,
      DataRepository.getResourceMd5, DataRepository.startCaculateMd5, hpack]
  · refine ⟨h.senderGuid, h.recieverGuid, hmoved.source, h.target, h.output,
      h.listed, h.writing, h.isBlock,
      .closing rfl hended hremaining hend ?_, ?_, ?_, h.finished⟩
    · rw [← hchannel]
    · rintro _ ⟨⟩
    · have hcontent := h.content
      rw [hpc] at hcontent
      exact hcontent

theorem InTransit.extractData (h : InTransit task s r q blocks)
    (hguid : cString task.guid = task.guid) (hlength : task.guid.length < 40)
    (hpc : s.pc = .extractData) (owerInfo : FileResourceParam) (md5 : Str) :
    ∃ t r', s.senderStep owerInfo md5 = some t ∧
      InTransit task t r' q blocks ∧
      ((∃ data, t.pc = .sendBlock data) ∧ r'.turns < r.turns ∨
        t.pc = .released) := by
  obtain ⟨ptr, hptr, hr⟩ := h.source
  have hpop := Registry.call_pop_of_find hptr hr
  rw [← h.senderGuid] at hpop
  cases hblock : r.popUp with
  | mk block r' =>
    simp only [DataRepository.popUp, hblock] at hpop
    cases block with
    | some data =>
      obtain ⟨hended, hchannel⟩ := h.sending (by rw [hpc]; decide)
      obtain ⟨hfits, hremaining, hturns⟩ :=
        SenderRepository.popUp_eq_some hblock
      refine ⟨_, r', by simp only [senderStep, hpc, hpop]; rfl, ?_,
        Or.inl ⟨⟨data, rfl⟩, hturns⟩⟩
      refine ⟨h.senderGuid, h.recieverGuid,
        ⟨ptr, hptr, StdMap.find_assign_self⟩, h.target, h.output,
        h.listed, h.writing, h.isBlock,
        .sending (by simp) hended hchannel, ?_, ?_, h.finished⟩
      · rintro _ ⟨⟩
        exact hfits
      · have hcontent := h.content
        rw [hpc, hremaining] at hcontent
        simpa [pending] using hcontent
    | none =>
      obtain ⟨hremaining, hremaining'⟩ :=
        SenderRepository.popUp_eq_none hblock
      have hmoved := h.setSource hptr _
        (hremaining'.trans hremaining.symm)
      obtain ⟨t, ht, htransit, hreleased⟩ :=
        hmoved.release hguid hlength hpc hremaining' owerInfo md5
      refine ⟨t, _, ?_, htransit, Or.inr hreleased⟩
      simp only [senderStep, hpc, hpop]
      exact ht

theorem InTransit.sendBlock (h : InTransit task s r q blocks)
    (hguid : cString task.guid = task.guid) (hlength : task.guid.length < 40)
    {data : DataChannelTransfer} (hpc : s.pc = .sendBlock data)
    (owerInfo : FileResourceParam) (md5 : Str) :
    ∃ t blocks', s.senderStep owerInfo md5 = some t ∧
      InTransit task t r q blocks' ∧ t.pc = .testSkipFlag := by
  obtain ⟨hended, hchannel⟩ := h.sending (by rw [hpc]; simp)
  obtain ⟨pack, hpack, hblock, hpayload⟩ :=
    blockPack_spec owerInfo hguid hlength (h.fits data hpc)
  refine ⟨_, blocks ++ [pack], by
    simp only [senderStep, hpc, h.senderGuid, h.recieverGuid, hpack]; rfl,
    ?_, rfl⟩
  refine ⟨rfl, rfl, h.source, h.target, h.output, h.listed, h.writing, ?_,
    .sending (by simp) hended ?_, ?_, ?_, h.finished⟩
  · intro other hother
    rcases List.mem_append.mp hother with hother | hother
    · exact h.isBlock other hother
    · rw [List.mem_singleton.mp hother]
      exact hblock
  · simp [hchannel]
  · rintro _ ⟨⟩
  · have hcontent := h.content
    rw [hpc] at hcontent
    simpa [pending, hpayload] using hcontent

theorem InTransit.moveTo (h : InTransit task s r q blocks) {pc : BlockPc}
    (hpc : pending s.pc = []) (hnot : s.pc ≠ .released)
    (hpc' : ∀ data, pc ≠ .sendBlock data) (hnot' : pc ≠ .released) :
    InTransit task { s with pc := pc } r q blocks := by
  obtain ⟨hended, hchannel⟩ := h.sending hnot
  refine ⟨h.senderGuid, h.recieverGuid, h.source, h.target, h.output,
    h.listed, h.writing, h.isBlock, .sending hnot' hended hchannel, ?_, ?_,
    h.finished⟩
  · intro data hdata
    exact absurd hdata (hpc' data)
  · have hcontent := h.content
    have hpending : pending pc = [] := by
      cases pc with
      | sendBlock data => exact absurd rfl (hpc' data)
      | _ => rfl
    rw [hpc] at hcontent
    rw [hpending]
    exact hcontent

theorem InTransit.setSkipFlag (h : InTransit task s r q blocks)
    (flag : Bool) : InTransit task { s with skipFlag := flag } r q blocks := by
  refine ⟨h.senderGuid, h.recieverGuid, h.source, h.target, h.output,
    h.listed, h.writing, h.isBlock, ?_, h.fits, h.content, h.finished⟩
  cases h.phase with
  | sending hpc hended hchannel => exact .sending hpc hended hchannel
  | closing hpc hended hremaining hend hchannel =>
    exact .closing hpc hended hremaining hend hchannel
  | done hpc hended hremaining hblocks hchannel =>
    exact .done hpc hended hremaining hblocks hchannel

theorem InTransit.deliverBlock {pack : FileDataPack}
    (h : InTransit task s r q (pack :: blocks)) (memory : Memory)
    (beyond : ℕ → UInt8) :
    ∃ t, s.deliver memory beyond = some t ∧
      InTransit task t r (q.pushBack pack.data) blocks ∧ t.pc = s.pc := by
  have hblock := h.isBlock pack List.mem_cons_self
  obtain ⟨hwriting, hwritten, hfinished⟩ :=
    ReceiverRepository.pushBack_of_fits h.writing hblock.fits
  obtain ⟨rest, hchannel, hphase⟩ : ∃ rest,
      s.channel = pack.serialize 3000 :: rest ∧
        ∀ t : Delivery, t.pc = s.pc → t.ended = s.ended →
          t.channel = rest → Phase t r.remaining blocks := by
    cases h.phase with
    | sending hpc hended hchannel =>
      refine ⟨_, hchannel, fun t hpc' hended' hrest => ?_⟩
      exact .sending (hpc' ▸ hpc) (hended'.trans hended) hrest
    | closing hpc hended hremaining hend hchannel =>
      refine ⟨_, hchannel, fun t hpc' hended' hrest => ?_⟩
      exact .closing (hpc'.trans hpc) (hended'.trans hended) hremaining
        hend hrest
    | done hpc hended hremaining hblocks => cases hblocks
  have hcallback := callback_serialize s.receiver memory.owerInfo
    memory.beyond beyond hblock.messageId
  rw [hblock.messageType] at hcallback
  have hpush := Registry.step_push_of_find pack.data h.target h.output
  have hsave : s.receiver.saveFileData task.guid pack.data = some
      { s.receiver with
        resourceIterator := { s.receiver.resourceIterator with
          heap := s.receiver.resourceIterator.heap.assign
            task.receiverPtr (.receiver (q.pushBack pack.data)) } } := by
    rw [ConductorPeerConnection.saveFileData, if_pos h.listed, hpush]
    rfl
  refine ⟨{ s with
      channel := rest
      receiver := { s.receiver with
        resourceIterator := { s.receiver.resourceIterator with
          heap := s.receiver.resourceIterator.heap.assign
            task.receiverPtr (.receiver (q.pushBack pack.data)) } } },
    ?_, ?_, rfl⟩
  · have hcallback : (recieveDataChannel s.receiver memory.owerInfo
        memory.beyond (.ofList (pack.serialize 3000) beyond)).callback =
        some (.file .RECIEVE_FILE_CHANNEL pack) := hcallback
    simp only [deliver, hchannel, hcallback, hblock.guid, hsave]
    rfl
  · refine ⟨h.senderGuid, h.recieverGuid, h.source, h.target,
      StdMap.find_assign_self, h.listed, hwriting, ?_,
      hphase _ rfl rfl rfl, h.fits, ?_, ?_⟩
    · intro other hother
      exact h.isBlock other (List.mem_cons_of_mem pack hother)
    · rw [hwritten, ← h.content]
      simp
    · rw [hfinished, hwritten, h.finished]
      simp

theorem InTransit.deliverEnd (h : InTransit task s r q [])
    (hpc : s.pc = .released) (hended : s.ended = false) (memory : Memory)
    (beyond : ℕ → UInt8) :
    ∃ t, s.deliver memory beyond = some t ∧ InTransit task t r q [] ∧
      t.ended = true := by
  cases h.phase with
  | sending hpc' => exact absurd hpc hpc'
  | done _ hended' => simp [hended] at hended'
  | closing _ _ hremaining hend hchannel =>
    rename_i pack
    have hcallback := callback_serialize s.receiver memory.owerInfo
      memory.beyond beyond hend.messageId
    rw [hend.messageType] at hcallback
    have hcallback : (recieveDataChannel s.receiver memory.owerInfo
        memory.beyond (.ofList (pack.serialize 3000) beyond)).callback =
        some (.file .END_SEND_FILE pack) := hcallback
    refine ⟨{ s with channel := [], ended := true }, ?_, ?_, rfl⟩
    · simp [deliver, hchannel, hcallback]
    · exact ⟨h.senderGuid, h.recieverGuid, h.source, h.target, h.output,
        h.listed, h.writing, h.isBlock, .done hpc rfl hremaining rfl rfl,
        h.fits, h.content, h.finished⟩

/-- The state belongs to a transfer in progress. -/
def OnTheWay (task : FileTask) (s : Delivery) : Prop :=
  ∃ r q blocks, InTransit task s r q blocks

theorem OnTheWay.step (h : OnTheWay task s)
    (hguid : cString task.guid = task.guid) (hlength : task.guid.length < 40)
    {e : Event} (hstep : s.step e = some t) : OnTheWay task t := by
  obtain ⟨r, q, blocks, h⟩ := h
  cases e with
  | sender owerInfo md5 =>
    change s.senderStep owerInfo md5 = some t at hstep
    cases hpc : s.pc with
    | extractData =>
      obtain ⟨t', r', ht', htransit, -⟩ :=
        h.extractData hguid hlength hpc owerInfo md5
      obtain rfl : t' = t := Option.some.inj (ht'.symm.trans hstep)
      exact ⟨_, _, _, htransit⟩
    | sendBlock data =>
      obtain ⟨t', blocks', ht', htransit, -⟩ :=
        h.sendBlock hguid hlength hpc owerInfo md5
      obtain rfl : t' = t := Option.some.inj (ht'.symm.trans hstep)
      exact ⟨_, _, _, htransit⟩
    | testSkipFlag =>
      simp only [senderStep, hpc, Option.some.injEq] at hstep
      subst hstep
      refine ⟨_, _, _, h.moveTo (by rw [hpc]; rfl) (by rw [hpc]; decide)
        ?_ ?_⟩
      · split <;> simp
      · split <;> simp
    | blocked => simp [senderStep, hpc] at hstep
    | released => simp [senderStep, hpc] at hstep
  | suspend =>
    cases hstep
    exact ⟨_, _, _, h.setSkipFlag true⟩
  | clearSkipFlag =>
    cases hstep
    exact ⟨_, _, _, h.setSkipFlag false⟩
  | notify =>
    simp only [Delivery.step, Option.some.injEq] at hstep
    subst hstep
    by_cases hpc : s.pc = .blocked
    · rw [if_pos hpc]
      exact ⟨_, _, _, h.moveTo (by rw [hpc]; rfl) (by rw [hpc]; decide)
        (by simp) (by simp)⟩
    · rw [if_neg hpc]
      exact ⟨_, _, _, h⟩
  | deliver memory beyond =>
    change s.deliver memory beyond = some t at hstep
    cases blocks with
    | cons pack blocks =>
      obtain ⟨t', ht', htransit, -⟩ := h.deliverBlock memory beyond
      obtain rfl : t' = t := Option.some.inj (ht'.symm.trans hstep)
      exact ⟨_, _, _, htransit⟩
    | nil =>
      cases h.phase with
      | sending _ _ hchannel =>
        simp [deliver, hchannel] at hstep
      | closing hpc hended =>
        obtain ⟨t', ht', htransit, -⟩ :=
          h.deliverEnd hpc hended memory beyond
        obtain rfl : t' = t := Option.some.inj (ht'.symm.trans hstep)
        exact ⟨_, _, _, htransit⟩
      | done _ _ _ _ hchannel =>
        simp [deliver, hchannel] at hstep

theorem OnTheWay.output (h : OnTheWay task s) :
    ∃ q, s.receiver.resourceIterator.heap.find task.receiverPtr =
        some (.receiver q) ∧
      q.writeStream.written <+: task.file ∧
      (s.ended →
        q.writeStream.written = task.file ∧
          q.finishTaskSize = task.file.length) := by
  obtain ⟨r, q, blocks, h⟩ := h
  refine ⟨q, h.output, ⟨_, h.content⟩, fun hended => ?_⟩
  have hwritten : q.writeStream.written = task.file := by
    cases h.phase with
    | sending _ hended' => simp [hended'] at hended
    | closing _ hended' => simp [hended'] at hended
    | done hpc _ hremaining hblocks =>
      have hcontent := h.content
      rw [hpc, hremaining, hblocks] at hcontent
      simpa [pending] using hcontent
  exact ⟨hwritten, by rw [h.finished, hwritten]⟩

/-! ### The end can be reached -/

theorem InTransit.reaches_extractData (h : InTransit task s r q blocks)
    (hguid : cString task.guid = task.guid) (hlength : task.guid.length < 40)
    (hpc : s.pc ≠ .released) :
    ∃ t blocks', Reachable (· = s) step t ∧
      InTransit task t r q blocks' ∧ t.pc = .extractData := by
  have hskip : ∀ u blocks', InTransit task u r q blocks' →
      u.pc = .testSkipFlag → ∃ t, Reachable (· = u) step t ∧
        InTransit task t r q blocks' ∧ t.pc = .extractData := by
    intro u blocks' hu hupc
    have hclear := hu.setSkipFlag false
    have hstep : step { u with skipFlag := false }
        (.sender ⟨⟨0, 0⟩, Octets.ofStr 40 [], Octets.ofStr 40 []⟩ []) =
        some { u with skipFlag := false, pc := .extractData } := by
      simp [Delivery.step, senderStep, hupc]
    refine ⟨_, (Reachable.single (e := .clearSkipFlag) rfl).trans
      (Reachable.single hstep), ?_, rfl⟩
    exact hclear.moveTo (by rw [hupc]; rfl) (by rw [hupc]; decide) (by simp)
      (by simp)
  cases hpc' : s.pc with
  | extractData => exact ⟨s, blocks, .init rfl, h, hpc'⟩
  | sendBlock data =>
    obtain ⟨u, blocks', hu, htransit, hupc⟩ := h.sendBlock hguid hlength
      hpc' ⟨⟨0, 0⟩, Octets.ofStr 40 [], Octets.ofStr 40 []⟩ []
    obtain ⟨t, ht, htransit, htpc⟩ := hskip u blocks' htransit hupc
    exact ⟨t, blocks', (Reachable.single (e := .sender _ _) hu).trans ht,
      htransit, htpc⟩
  | testSkipFlag =>
    obtain ⟨t, ht, htransit, htpc⟩ := hskip s blocks h hpc'
    exact ⟨t, blocks, ht, htransit, htpc⟩
  | blocked =>
    refine ⟨_, blocks, Reachable.single (e := .notify) rfl, ?_, ?_⟩
    · exact h.moveTo (by rw [hpc']; rfl) hpc (by rw [if_pos hpc']; simp)
        (by rw [if_pos hpc']; simp)
    · exact if_pos hpc'
  | released => exact absurd hpc' hpc

theorem InTransit.reaches_released
    (hguid : cString task.guid = task.guid) (hlength : task.guid.length < 40)
    (n : ℕ) : ∀ {s r q blocks}, InTransit task s r q blocks →
      r.turns = n → ∃ t r' q' blocks', Reachable (· = s) step t ∧
        InTransit task t r' q' blocks' ∧ t.pc = .released := by
  induction n using Nat.strong_induction_on with
  | h n ih =>
    intro s r q blocks h hn
    by_cases hpc : s.pc = .released
    · exact ⟨s, r, q, blocks, .init rfl, h, hpc⟩
    · obtain ⟨u, blocks', hu, htransit, hupc⟩ :=
        h.reaches_extractData hguid hlength hpc
      obtain ⟨v, r', hv, htransit, hvpc⟩ := htransit.extractData hguid
        hlength hupc ⟨⟨0, 0⟩, Octets.ofStr 40 [], Octets.ofStr 40 []⟩ []
      have hreach : Reachable (· = s) step v :=
        hu.trans (Reachable.single (e := .sender _ _) hv)
      rcases hvpc with ⟨-, hturns⟩ | hreleased
      · obtain ⟨t, r'', q', blocks'', ht, htransit, htpc⟩ :=
          ih r'.turns (hn ▸ hturns) htransit rfl
        exact ⟨t, r'', q', blocks'', hreach.trans ht, htransit, htpc⟩
      · exact ⟨v, r', q, blocks', hreach, htransit, hreleased⟩

theorem InTransit.reaches_ended (memory : Memory) (beyond : ℕ → UInt8) :
    ∀ {s r q} (blocks : List FileDataPack), InTransit task s r q blocks →
      s.pc = .released → ∃ t, Reachable (· = s) step t ∧ t.ended := by
  intro s r q blocks
  induction blocks generalizing s q with
  | nil =>
    intro h hpc
    cases hended : s.ended with
    | true => exact ⟨s, .init rfl, hended⟩
    | false =>
      obtain ⟨t, ht, -, hended⟩ := h.deliverEnd hpc hended memory beyond
      exact ⟨t, Reachable.single (e := .deliver _ _) ht, hended⟩
  | cons pack blocks ih =>
    intro h hpc
    obtain ⟨u, hu, htransit, hupc⟩ := h.deliverBlock memory beyond
    obtain ⟨t, ht, hended⟩ := ih htransit (hupc.trans hpc)
    exact ⟨t, (Reachable.single (e := .deliver _ _) hu).trans ht, hended⟩

theorem OnTheWay.reaches_ended (h : OnTheWay task s)
    (hguid : cString task.guid = task.guid)
    (hlength : task.guid.length < 40) :
    ∃ t, Reachable (· = s) Delivery.step t ∧ t.ended := by
  obtain ⟨r, q, blocks, h⟩ := h
  obtain ⟨u, r', q', blocks', hu, htransit, hupc⟩ :=
    InTransit.reaches_released hguid hlength r.turns h rfl
  obtain ⟨t, ht, hended⟩ := InTransit.reaches_ended
    ⟨⟨⟨0, 0⟩, Octets.ofStr 40 [], Octets.ofStr 40 []⟩, []⟩ (fun _ => 0)
    blocks' htransit hupc
  exact ⟨t, hu.trans ht, hended⟩

theorem onTheWay_of_fresh {header reply : Memory} {count : ℤ}
    {sender receiver : ConductorPeerConnection}
    (h : acceptTask task header reply count sender receiver = some s)
    (hfresh : Fresh task s) : OnTheWay task s := by
  obtain ⟨-, -, -, hsender, hreciever, hpc, hchannel, hended, -, c, hrecieve,
    hresVector, hcount⟩ := acceptTask_spec h
  obtain ⟨-, hlisted, -, q, hq, hwriting, hwritten, hfinished⟩ :=
    recieveFile_spec hrecieve
  obtain ⟨ptr, r, hptr, hr, hreadFile⟩ := hfresh.sender
  obtain ⟨hdataMap, hset⟩ := Registry.step_setResBlockSize hcount
  have htarget := hfresh.receiver
  rw [hdataMap] at htarget
  refine ⟨r, { q with totalTaskSize := count }, [], hsender, hreciever,
    ⟨ptr, hptr, hr⟩, hfresh.receiver, hset _ _ htarget hq, ?_, hwriting,
    nofun, .sending (by rw [hpc]; simp) hended hchannel, ?_, ?_, ?_⟩
  · rw [hresVector]
    exact hlisted
  · rintro _ hdata
    rw [hpc] at hdata
    cases hdata
  · simp [hwritten, hpc, pending, SenderRepository.remaining, hreadFile]
  · simp [hwritten, hfinished]

theorem fresh_of_unused {header reply : Memory} {count : ℤ}
    {sender receiver : ConductorPeerConnection}
    (h : acceptTask task header reply count sender receiver = some s)
    (hpath : task.senderPath ≠ [])
    (hsender : sender.resourceIterator.dataMap.find task.guid = none)
    (hreceiver : receiver.resourceIterator.dataMap.find task.guid = none) :
    Fresh task s := by
  obtain ⟨-, -, -, -, -, -, -, -, hcreate, c, hrecieve, -, hcount⟩ :=
    acceptTask_spec h
  obtain ⟨-, -, hdataMap, -⟩ := recieveFile_spec hrecieve
  obtain ⟨r, hptr, hr, hreadFile⟩ := createSendFile_spec hcreate hsender hpath
  refine ⟨⟨_, r, hptr, hr, hreadFile⟩, ?_⟩
  rw [(Registry.step_setResBlockSize hcount).1, hdataMap,
    StdMap.insert_of_find_eq_none hreceiver, StdMap.find_assign_self]

/-- A file is delivered under every accepted guid that starts afresh. -/
theorem delivers_of_fresh (task : FileTask) (header reply : Memory)
    (count : ℤ) (sender receiver : ConductorPeerConnection) (s : Delivery)
    (h : acceptTask task header reply count sender receiver = some s)
    (hfresh : Fresh task s) : Delivers task s := by
  obtain ⟨-, hguid, hlength, -⟩ := acceptTask_spec h
  intro t ht
  have honTheWay : OnTheWay task t := by
    refine Reachable.invariant ?_ ?_ ht
    · rintro _ rfl
      exact onTheWay_of_fresh h hfresh
    · intro u e v hu hstep
      exact hu.step hguid hlength hstep
  exact ⟨honTheWay.output, honTheWay.reaches_ended hguid hlength⟩

/-- One byte under the guid `g`. -/
def sampleTask : FileTask where
  guid := [0x67]
  senderPath := [0x66]
  file := [0x01]
  goalPath := [0x66]
  senderPtr := 0
  receiverPtr := 1

def zeroMemory : Memory where
  owerInfo := ⟨⟨0, 0⟩, Octets.ofStr 40 [], Octets.ofStr 40 []⟩
  beyond := []

theorem delivers_sampleTask :
    ∃ s, acceptTask sampleTask zeroMemory zeroMemory 1 .new .new = some s ∧
      Delivers sampleTask s := by
  obtain ⟨s, hs⟩ : ∃ s, acceptTask sampleTask zeroMemory zeroMemory 1 .new
      .new = some s := ⟨_, rfl⟩
  refine ⟨s, hs, delivers_of_fresh sampleTask zeroMemory zeroMemory 1 .new
    .new s hs (fresh_of_unused hs ?_ rfl rfl)⟩
  decide

/-! ## A guid that is used again -/

theorem receiver_release {owerInfo : FileResourceParam} {md5 : Str}
    (h : s.release owerInfo md5 = some t) : t.receiver = s.receiver := by
  simp only [release, Option.bind_eq_bind, Option.bind_eq_some_iff,
    Prod.exists, Option.some.injEq] at h
  obtain ⟨registry, md5, -, pack, -, rfl⟩ := h
  rfl

theorem receiver_senderStep {owerInfo : FileResourceParam} {md5 : Str}
    (h : s.senderStep owerInfo md5 = some t) : t.receiver = s.receiver := by
  cases hpc : s.pc with
  | extractData =>
    simp only [senderStep, hpc, Option.bind_eq_bind,
      Option.bind_eq_some_iff, Prod.exists] at h
    obtain ⟨registry, reply, -, h⟩ := h
    split at h
    · cases h
      rfl
    · have hrelease := receiver_release h
      exact hrelease
  | sendBlock data =>
    simp only [senderStep, hpc, Option.bind_eq_bind,
      Option.bind_eq_some_iff, Option.some.injEq] at h
    obtain ⟨pack, -, rfl⟩ := h
    rfl
  | testSkipFlag =>
    simp only [senderStep, hpc, Option.some.injEq] at h
    subst h
    rfl
  | blocked => simp [senderStep, hpc] at h
  | released => simp [senderStep, hpc] at h

theorem find_of_no_entry {ptr : RepositoryPtr}
    (hptr : ∀ guid,
      s.receiver.resourceIterator.dataMap.find guid ≠ some (some ptr))
    {e : Event} (hstep : s.step e = some t) :
    t.receiver.resourceIterator.heap.find ptr =
        s.receiver.resourceIterator.heap.find ptr ∧
      t.receiver.resourceIterator.dataMap =
        s.receiver.resourceIterator.dataMap := by
  cases e with
  | sender owerInfo md5 =>
    rw [receiver_senderStep hstep]
    exact ⟨rfl, rfl⟩
  | suspend | clearSkipFlag | notify =>
    cases hstep
    exact ⟨rfl, rfl⟩
  | deliver memory beyond =>
    change s.deliver memory beyond = some t at hstep
    simp only [deliver] at hstep
    split at hstep
    · cases hstep
    · split at hstep
      · simp only [Option.bind_eq_bind, Option.bind_eq_some_iff,
          Option.some.injEq] at hstep
        obtain ⟨receiver, hsave, rfl⟩ := hstep
        simp only [ConductorPeerConnection.saveFileData] at hsave
        split at hsave
        · obtain ⟨registry, hpush, rfl⟩ :=
            Option.map_eq_some_iff.mp hsave
          obtain ⟨⟨_, reply⟩, hcall, rfl⟩ :=
            Option.map_eq_some_iff.mp hpush
          simp only [Registry.call] at hcall
          exact Registry.find_withEntry hcall hptr
        · cases hsave
          exact ⟨rfl, rfl⟩
      · cases hstep
        exact ⟨rfl, rfl⟩
      · cases hstep
        exact ⟨rfl, rfl⟩

theorem find_of_no_entry_run {ptr : RepositoryPtr}
    (hptr : ∀ guid,
      s.receiver.resourceIterator.dataMap.find guid ≠ some (some ptr))
    (ht : Reachable (· = s) step t) :
    t.receiver.resourceIterator.heap.find ptr =
      s.receiver.resourceIterator.heap.find ptr := by
  let untouched (t : Delivery) : Prop :=
    t.receiver.resourceIterator.heap.find ptr =
        s.receiver.resourceIterator.heap.find ptr ∧
      t.receiver.resourceIterator.dataMap =
        s.receiver.resourceIterator.dataMap
  have huntouched : untouched t := by
    refine Reachable.invariant ?_ ?_ ht
    · rintro _ rfl
      exact ⟨rfl, rfl⟩
    · rintro u e v ⟨hheap, hdataMap⟩ hstep
      obtain ⟨hheap', hdataMap'⟩ :=
        find_of_no_entry (by rw [hdataMap]; exact hptr) hstep
      exact ⟨hheap'.trans hheap, hdataMap'.trans hdataMap⟩
  exact huntouched.1

/-- The receiver's side after an earlier file under the same guid. -/
def usedReceiver : ConductorPeerConnection :=
  ((acceptTask { sampleTask with receiverPtr := 0 } zeroMemory zeroMemory 1
    .new .new).bind fun s =>
      (s.receiver.resourceIterator.getResourceMd5 [0x67] []).map
        fun (registry, _) =>
          { s.receiver with resourceIterator := registry }).getD .new

/-- The blocks of a guid that is used again go to the old, closed file. -/
theorem not_forall_delivers :
    ¬∀ (task : FileTask) (header reply : Memory) (count : ℤ)
      (sender receiver : ConductorPeerConnection) (s : Delivery),
      acceptTask task header reply count sender receiver = some s →
        Delivers task s := by
  intro h
  obtain ⟨s, hs, hmap, q, hq, hwritten⟩ : ∃ s,
      acceptTask sampleTask zeroMemory zeroMemory 1 .new usedReceiver =
        some s ∧
      (∀ guid,
        s.receiver.resourceIterator.dataMap.find guid ≠ some (some 1)) ∧
      ∃ q, s.receiver.resourceIterator.heap.find 1 = some (.receiver q) ∧
        q.writeStream.written = [] := by
    refine ⟨_, rfl, ?_, _, rfl, rfl⟩
    intro guid hguid
    have hentry : ((StdMap.empty : StdMap Str (Option RepositoryPtr)).assign
        [0x67] (some 0)).find guid = some (some 1) := hguid
    rcases StdMap.find_assign_eq_some_iff.mp hentry with ⟨-, h⟩ | ⟨-, h⟩
    · cases h
    · cases h
  have hdelivers := h _ _ _ _ _ _ s hs
  obtain ⟨-, t, ht, hended⟩ := hdelivers s (.init rfl)
  obtain ⟨⟨q', hq', -, hfile⟩, -⟩ := hdelivers t ht
  have hsame := hq'.symm.trans ((find_of_no_entry_run hmap ht).trans hq)
  cases hsame
  have hbytes := (hfile hended).1
  rw [hwritten] at hbytes
  cases hbytes

end Delivery

end WebrtcWinXp.FileTransfer
