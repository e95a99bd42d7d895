import WebrtcWinXp.Stun.ByteBuffer

/-!
# Data channels

`DataChannel` of `datachannel.cc` with its packet queues, the handshake
messages of `sctputils.cc`, and the provider and the observer that it calls.
The provider is an oracle that answers each `SendData`; what it accepted and
what the observer was told are kept as logs.
-/

namespace WebrtcWinXp.DataChannel

open Stun.ByteBuffer

/-! ## Messages and queues -/

structure DataBuffer where
  data : List UInt8
  binary : Bool
  deriving DecidableEq, Repr

def DataBuffer.size (buffer : DataBuffer) : ℕ := buffer.data.length

/-- `DataChannel::PacketQueue`. -/
structure PacketQueue where
  packets : List DataBuffer
  byteCount : ℕ
  deriving DecidableEq, Repr

namespace PacketQueue

def empty : PacketQueue := ⟨[], 0⟩

def isEmpty (q : PacketQueue) : Bool := q.packets.isEmpty

def pop (q : PacketQueue) : PacketQueue :=
  match q.packets with
  | [] => q
  | packet :: packets => ⟨packets, q.byteCount - packet.size⟩

def push (packet : DataBuffer) (q : PacketQueue) : PacketQueue :=
  ⟨q.packets ++ [packet], q.byteCount + packet.size⟩

def clear (_ : PacketQueue) : PacketQueue := empty

end PacketQueue

inductive OpenHandshakeRole where
  | kOpener
  | kAcker
  | kNone
  deriving DecidableEq, Repr

structure InternalDataChannelInit where
  reliable : Bool
  ordered : Bool
  maxRetransmitTime : ℤ
  maxRetransmits : ℤ
  protocol : List UInt8
  negotiated : Bool
  id : ℤ
  openHandshakeRole : OpenHandshakeRole
  deriving DecidableEq, Repr

namespace InternalDataChannelInit

def new : InternalDataChannelInit :=
  ⟨false, true, -1, -1, [], false, -1, .kOpener⟩

/-- `DataChannelOpenMessageChannelType` and the reliability parameter. -/
def openMessageChannelType (config : InternalDataChannelInit) :
    UInt8 × UInt32 :=
  let base : UInt8 := if config.ordered then 0x00 else 0x80
  if config.maxRetransmits > -1 then
    (base + 0x01, UInt32.ofInt config.maxRetransmits)
  else if config.maxRetransmitTime > -1 then
    (base + 0x02, UInt32.ofInt config.maxRetransmitTime)
  else (base, 0)

end InternalDataChannelInit

def DATA_CHANNEL_OPEN_MESSAGE_TYPE : UInt8 := 0x03

def DATA_CHANNEL_OPEN_ACK_MESSAGE_TYPE : UInt8 := 0x02

def writeDataChannelOpenMessage (label : List UInt8)
    (config : InternalDataChannelInit) : List UInt8 :=
  writeUInt8 DATA_CHANNEL_OPEN_MESSAGE_TYPE ++
    writeUInt8 config.openMessageChannelType.1 ++ writeUInt16 0 ++
    writeUInt32 config.openMessageChannelType.2 ++
    writeUInt16 (UInt16.ofNat label.length) ++
    writeUInt16 (UInt16.ofNat config.protocol.length) ++
    label ++ config.protocol

def writeDataChannelOpenAckMessage : List UInt8 :=
  writeUInt8 DATA_CHANNEL_OPEN_ACK_MESSAGE_TYPE

def parseDataChannelOpenAckMessage (payload : List UInt8) : Bool :=
  match readUInt8 payload with
  | none => false
  | some (messageType, _) => messageType == DATA_CHANNEL_OPEN_ACK_MESSAGE_TYPE

inductive DataMessageType where
  | none
  | control
  | binary
  | text
  deriving DecidableEq, Repr

structure SendDataParams where
  ssrc : UInt32
  type : DataMessageType
  ordered : Bool
  maxRtxCount : ℤ
  maxRtxMs : ℤ
  deriving DecidableEq, Repr

structure ReceiveDataParams where
  ssrc : UInt32
  type : DataMessageType
  deriving DecidableEq, Repr

/-- The outcome of `SendData`: true, or false with `SDR_BLOCK`, or false with
another result. -/
inductive SendDataResult where
  | success
  | block
  | error
  deriving DecidableEq, Repr

/-- The provider: its answers by the number of the request, how often it was
asked, and what it accepted. -/
structure Provider where
  sendAnswers : ℕ → SendDataResult
  connectAnswers : ℕ → Bool
  sendsAsked : ℕ
  connectsAsked : ℕ
  sent : List (SendDataParams × List UInt8)

def Provider.new (sendAnswers : ℕ → SendDataResult)
    (connectAnswers : ℕ → Bool) : Provider :=
  ⟨sendAnswers, connectAnswers, 0, 0, []⟩

def toDataBuffer : SendDataParams × List UInt8 → Option DataBuffer
  | (params, payload) =>
    match params.type with
    | .binary => some ⟨payload, true⟩
    | .text => some ⟨payload, false⟩
    | _ => Option.none

/-- The data messages that the provider accepted. -/
def Provider.accepted (provider : Provider) : List DataBuffer :=
  provider.sent.filterMap toDataBuffer

/-- What an observer is told. -/
inductive Notice where
  | stateChange
  | message (buffer : DataBuffer)
  deriving DecidableEq, Repr

def Notice.buffer? : Notice → Option DataBuffer
  | .stateChange => none
  | .message buffer => some buffer

/-! ## The channel -/

inductive DataState where
  | kConnecting
  | kOpen
  | kClosing
  | kClosed
  deriving DecidableEq, Repr

inductive DataChannelType where
  | none
  | rtp
  | sctp
  deriving DecidableEq, Repr

def kMaxQueuedReceivedDataBytes : ℕ := 16 * 1024 * 1024

def kMaxQueuedSendDataBytes : ℕ := 16 * 1024 * 1024

/-- `DataChannel`, with the provider and the notices to its observers. -/
structure Channel where
  label : List UInt8
  config : InternalDataChannelInit
  observer : Option ℕ
  state : DataState
  dataChannelType : DataChannelType
  waitingForOpenAck : Bool
  wasEverWritable : Bool
  connectedToProvider : Bool
  sendSsrcSet : Bool
  receiveSsrcSet : Bool
  sendSsrc : UInt32
  receiveSsrc : UInt32
  queuedControlData : PacketQueue
  queuedReceivedData : PacketQueue
  queuedSendData : PacketQueue
  provider : Provider
  notices : List Notice

namespace Channel

def handed (ch : Channel) : List DataBuffer :=
  ch.notices.filterMap Notice.buffer?

/-- `provider_->SendData`. -/
def sendData (params : SendDataParams) (payload : List UInt8) (ch : Channel) :
    SendDataResult × Channel :=
  let result := ch.provider.sendAnswers ch.provider.sendsAsked
  (result, { ch with
    provider := { ch.provider with
      sendsAsked := ch.provider.sendsAsked + 1
      sent := if result = .success then ch.provider.sent ++ [(params, payload)]
        else ch.provider.sent } })

/-- `provider_->ConnectDataChannel` and the flag that its result is stored
in. -/
def connectDataChannel (ch : Channel) : Channel :=
  { ch with
    connectedToProvider :=
      ch.provider.connectAnswers ch.provider.connectsAsked
    provider := { ch.provider with
      connectsAsked := ch.provider.connectsAsked + 1 } }

def setState (state : DataState) (ch : Channel) : Channel :=
  if ch.state = state then ch
  else
    { ch with
      state := state
      notices :=
        if ch.observer.isSome then ch.notices ++ [.stateChange]
        else ch.notices }

def disconnectFromTransport (ch : Channel) : Channel :=
  if ¬ch.connectedToProvider then ch
  else { ch with connectedToProvider := false }

/-- `UpdateState` in the state `kClosing`. -/
def updateClosing (ch : Channel) : Channel :=
  let ch := ch.disconnectFromTransport
  if ¬ch.sendSsrcSet ∧ ¬ch.receiveSsrcSet then ch.setState .kClosed else ch

/-- `Close`.  `UpdateState` is called in `kClosing`
(`updateState_kClosing`). -/
def close (ch : Channel) : Channel :=
  if ch.state = .kClosed then ch
  else
    updateClosing
      (setState .kClosing { ch with sendSsrc := 0, sendSsrcSet := false })

def doClose (ch : Channel) : Channel :=
  if ch.state = .kClosed then ch
  else
    updateClosing
      (setState .kClosing
        { ch with receiveSsrcSet := false, sendSsrcSet := false })

def queueControlMessage (payload : List UInt8) (ch : Channel) : Channel :=
  { ch with queuedControlData := ch.queuedControlData.push ⟨payload, true⟩ }

def sendControlMessage (payload : List UInt8) (ch : Channel) : Channel :=
  let isOpenMessage := ch.config.openHandshakeRole == .kOpener
  let sendParams : SendDataParams :=
    { ssrc := UInt32.ofInt ch.config.id
      type := .control
      ordered := ch.config.ordered || isOpenMessage
      maxRtxCount := 0
      maxRtxMs := 0 }
  match ch.sendData sendParams payload with
  | (.success, ch) =>
    if isOpenMessage then { ch with waitingForOpenAck := true } else ch
  | (.block, ch) => ch.queueControlMessage payload
  | (.error, ch) => ch.close

/-- `SendQueuedControlMessages`: the swapped copy is sent front to back. -/
def sendQueuedControlMessages (ch : Channel) : Channel :=
  ch.queuedControlData.packets.foldl
    (fun ch buf => ch.sendControlMessage buf.data)
    { ch with queuedControlData := .empty }

/-- `observer_->OnMessage`. -/
def onMessage (buffer : DataBuffer) (ch : Channel) : Channel :=
  { ch with notices := ch.notices ++ [.message buffer] }

/-- `DeliverQueuedReceivedData`.  Every round pops the message it
delivered. -/
def deliverQueuedReceivedData (ch : Channel) : Channel :=
  if ¬ch.wasEverWritable ∨ ch.observer.isNone then ch
  else
    ch.queuedReceivedData.packets.foldl
      (fun ch buffer =>
        let ch := ch.onMessage buffer
        { ch with queuedReceivedData := ch.queuedReceivedData.pop })
      ch

def updateState (ch : Channel) : Channel :=
  match ch.state with
  | .kConnecting =>
    if ch.sendSsrcSet = ch.receiveSsrcSet then
      let ch :=
        if ch.dataChannelType = .rtp ∧ ¬ch.connectedToProvider then
          ch.connectDataChannel
        else ch
      if ch.wasEverWritable then
        (ch.sendQueuedControlMessages.setState
          .kOpen).deliverQueuedReceivedData
      else ch
    else ch
  | .kOpen => ch
  | .kClosing => ch.updateClosing
  | .kClosed => ch

/-- The `ssrc` that `OnDataReceived` expects. -/
def expectedSsrc (ch : Channel) : UInt32 :=
  if ch.dataChannelType = .rtp then ch.receiveSsrc
  else UInt32.ofInt ch.config.id

def onDataReceived (params : ReceiveDataParams) (payload : List UInt8)
    (ch : Channel) : Channel :=
  if params.ssrc ≠ ch.expectedSsrc then ch
  else if params.type = .control then
    if ¬ch.waitingForOpenAck then ch
    else if parseDataChannelOpenAckMessage payload then
      { ch with waitingForOpenAck := false }
    else ch
  else
    let ch := { ch with waitingForOpenAck := false }
    let buffer : DataBuffer := ⟨payload, params.type == .binary⟩
    if ch.wasEverWritable ∧ ch.observer.isSome then ch.onMessage buffer
    else if ch.queuedReceivedData.byteCount + payload.length >
        kMaxQueuedReceivedDataBytes then
      let ch := { ch with queuedReceivedData := ch.queuedReceivedData.clear }
      if ch.dataChannelType ≠ .rtp then ch.close else ch
    else { ch with queuedReceivedData := ch.queuedReceivedData.push buffer }

/-- `QueueSendDataMessage`: its result and the channel. -/
def queueSendDataMessage (buffer : DataBuffer) (ch : Channel) :
    Bool × Channel :=
  if ch.queuedSendData.byteCount ≥ kMaxQueuedSendDataBytes then (false, ch)
  else (true, { ch with queuedSendData := ch.queuedSendData.push buffer })

/-- The parameters of `SendDataMessage`. -/
def sendDataParams (buffer : DataBuffer) (ch : Channel) : SendDataParams :=
  let type : DataMessageType := if buffer.binary then .binary else .text
  if ch.dataChannelType = .sctp then
    { ssrc := UInt32.ofInt ch.config.id
      type := type
      ordered := ch.config.ordered ||
        (ch.waitingForOpenAck && !ch.config.ordered)
      maxRtxCount := ch.config.maxRetransmits
      maxRtxMs := ch.config.maxRetransmitTime }
  else
    { ssrc := ch.sendSsrc
      type := type
      ordered := false
      maxRtxCount := 0
      maxRtxMs := 0 }

/-- `SendDataMessage`: its result and the channel. -/
def sendDataMessage (buffer : DataBuffer) (ch : Channel) : Bool × Channel :=
  match ch.sendData (ch.sendDataParams buffer) buffer.data with
  | (.success, ch) => (true, ch)
  | (.block, ch) =>
    if ch.dataChannelType = .sctp then
      match ch.queueSendDataMessage buffer with
      | (true, ch) => (false, ch)
      | (false, ch) => (false, ch.close)
    else (false, ch)
  | (.error, ch) =>
    (false, if ch.dataChannelType = .sctp then ch.close else ch)

/-- `SendQueuedDataMessages`: the swapped copy is sent front to back. -/
def sendQueuedDataMessages (ch : Channel) : Channel :=
  ch.queuedSendData.packets.foldl
    (fun ch buffer => (ch.sendDataMessage buffer).2)
    { ch with queuedSendData := .empty }

/-- `Send`: its result and the channel. -/
def send (buffer : DataBuffer) (ch : Channel) : Bool × Channel :=
  if ch.state ≠ .kOpen then (false, ch)
  else if buffer.size = 0 then (true, ch)
  else if ¬ch.queuedSendData.isEmpty then
    match ch.queueSendDataMessage buffer with
    | (true, ch) => (true, ch)
    | (false, ch) => (true, ch.close)
  else
    match ch.sendDataMessage buffer with
    | (success, ch) =>
      if ch.dataChannelType = .rtp then (success, ch) else (true, ch)

/-- What `OnChannelReady` sends when the channel is writable for the first
time. -/
def sendHandshake (ch : Channel) : Channel :=
  if ch.dataChannelType = .sctp then
    match ch.config.openHandshakeRole with
    | .kOpener =>
      ch.sendControlMessage (writeDataChannelOpenMessage ch.label ch.config)
    | .kAcker => ch.sendControlMessage writeDataChannelOpenAckMessage
    | .kNone => ch
  else ch

def onChannelReady (writable : Bool) (ch : Channel) : Channel :=
  if ¬writable then ch
  else if ¬ch.wasEverWritable then
    (sendHandshake { ch with wasEverWritable := true }).updateState
  else if ch.state = .kOpen then
    ch.sendQueuedControlMessages.sendQueuedDataMessages
  else ch

def registerObserver (observer : Option ℕ) (ch : Channel) : Channel :=
  deliverQueuedReceivedData { ch with observer := observer }

def unregisterObserver (ch : Channel) : Channel :=
  { ch with observer := none }

def setReceiveSsrc (receiveSsrc : UInt32) (ch : Channel) : Channel :=
  if ch.receiveSsrcSet then ch
  else
    updateState { ch with receiveSsrc := receiveSsrc, receiveSsrcSet := true }

def setSendSsrc (sendSsrc : UInt32) (ch : Channel) : Channel :=
  if ch.sendSsrcSet then ch
  else updateState { ch with sendSsrc := sendSsrc, sendSsrcSet := true }

def setSctpSid (sid : ℤ) (ch : Channel) : Channel :=
  if ch.config.id = sid then ch
  else { ch with config := { ch.config with id := sid } }

def onTransportChannelCreated (ch : Channel) : Channel :=
  if ¬ch.connectedToProvider then ch.connectDataChannel else ch

def new (provider : Provider) (dct : DataChannelType) (label : List UInt8) :
    Channel :=
  { label := label
    config := .new
    observer := none
    state := .kConnecting
    dataChannelType := dct
    waitingForOpenAck := false
    wasEverWritable := false
    connectedToProvider := false
    sendSsrcSet := false
    receiveSsrcSet := false
    sendSsrc := 0
    receiveSsrc := 0
    queuedControlData := .empty
    queuedReceivedData := .empty
    queuedSendData := .empty
    provider := provider
    notices := [] }

/-- `Create`.  The message that `Init` posts when the provider is ready is a
later call of `OnChannelReady`. -/
def create (provider : Provider) (dct : DataChannelType) (label : List UInt8)
    (config : InternalDataChannelInit) : Option Channel :=
  let ch := new provider dct label
  if dct = .rtp ∧ (config.reliable ∨ config.id ≠ -1 ∨
      config.maxRetransmits ≠ -1 ∨ config.maxRetransmitTime ≠ -1) then none
  else if dct = .sctp then
    if config.id < -1 ∨ config.maxRetransmits < -1 ∨
        config.maxRetransmitTime < -1 then none
    else if config.maxRetransmits ≠ -1 ∧ config.maxRetransmitTime ≠ -1 then
      none
    else some (onTransportChannelCreated { ch with config := config })
  else some ch

end Channel

/-- A call of one of the methods. -/
inductive Call where
  | send (buffer : DataBuffer)
  | close
  | onChannelReady (writable : Bool)
  | onDataReceived (params : ReceiveDataParams) (payload : List UInt8)
  | registerObserver (observer : Option ℕ)
  | unregisterObserver
  | setReceiveSsrc (receiveSsrc : UInt32)
  | setSendSsrc (sendSsrc : UInt32)
  | setSctpSid (sid : ℤ)
  | onTransportChannelCreated
  | remotePeerRequestClose
  | onDataEngineClose

def Call.apply : Call → Channel → Channel
  | .send buffer => fun ch => (ch.send buffer).2
  | .close => Channel.close
  | .onChannelReady writable => Channel.onChannelReady writable
  | .onDataReceived params payload => Channel.onDataReceived params payload
  | .registerObserver observer => Channel.registerObserver observer
  | .unregisterObserver => Channel.unregisterObserver
  | .setReceiveSsrc receiveSsrc => Channel.setReceiveSsrc receiveSsrc
  | .setSendSsrc sendSsrc => Channel.setSendSsrc sendSsrc
  | .setSctpSid sid => Channel.setSctpSid sid
  | .onTransportChannelCreated => Channel.onTransportChannelCreated
  | .remotePeerRequestClose => Channel.doClose
  | .onDataEngineClose => Channel.doClose

/-- A channel, the messages that `Send` returned true for, and the data
messages that arrived for it. -/
structure Session where
  channel : Channel
  taken : List DataBuffer
  arrived : List DataBuffer

/-- The data message that a call brings to a channel. -/
def Call.arrival? (ch : Channel) : Call → Option DataBuffer
  | .onDataReceived params payload =>
    if params.ssrc = ch.expectedSsrc ∧ params.type ≠ .control then
      some ⟨payload, params.type == .binary⟩
    else none
  | _ => none

/-- The message that a call hands to `Send`, if it returns true. -/
def Call.taken? (ch : Channel) : Call → Option DataBuffer
  | .send buffer => if (ch.send buffer).1 then some buffer else none
  | _ => none

def Session.step (s : Session) (call : Call) : Option Session :=
  some ⟨call.apply s.channel, s.taken ++ (call.taken? s.channel).toList,
    s.arrived ++ (call.arrival? s.channel).toList⟩

def Session.Initial (dct : DataChannelType) (s : Session) : Prop :=
  ∃ sendAnswers connectAnswers label config,
    Channel.create (.new sendAnswers connectAnswers) dct label config =
      some s.channel ∧
    s.taken = [] ∧ s.arrived = []

end WebrtcWinXp.DataChannel
