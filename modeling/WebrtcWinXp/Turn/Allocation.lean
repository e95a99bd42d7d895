import WebrtcWinXp.Turn.Connection
import WebrtcWinXp.Turn.Message

/-!
# TURN allocations

`TurnServer::Allocation` with its permissions and channels: the handlers of
the messages of its client, of channel data, and of packets of peers.

A handler takes the time and returns the allocation and what it sends.  The
messages that an object has posted to itself with a delay are the times at
which they are due; `Clear` removes them.
-/

namespace WebrtcWinXp.Turn

open Support Stun ByteBuffer

/-- The settings of a `TurnServer`, and the parameters of the model. -/
structure Config where
  nonceKey : List UInt8
  realm : List UInt8
  software : List UInt8
  /-- `auth_hook_->GetKey`, of a user name and a realm. -/
  authHook : Option (List UInt8 → List UInt8 → List UInt8)
  enableOtuNonce : Bool
  hmac : Hmac
  hmacMd5 : HmacMd5
  rebalance : SearchTree.Rebalancing Connection ℕ

/-- `TurnServer::Permission`, due to be destroyed at `deadline`. -/
structure Permission where
  peer : IPAddress
  deadline : ℕ
  deriving DecidableEq

/-- `TurnServer::Channel`, due to be destroyed at `deadline`. -/
structure Channel where
  id : ℕ
  peer : SocketAddress
  deadline : ℕ
  deriving DecidableEq

/-- `TurnServer::Allocation`.  The external socket is given by its local
address, and `timers` are the times of the pending `MSG_TIMEOUT`s. -/
structure Allocation where
  conn : Connection
  externalSocket : SocketAddress
  key : List UInt8
  transactionId : List UInt8
  username : List UInt8
  lastNonce : List UInt8
  perms : List Permission
  channels : List Channel
  timers : List ℕ
  deriving DecidableEq

/-- What the server sends: to a client through the socket of a connection,
or to a peer from the external socket of an allocation. -/
inductive Output where
  | stun (conn : Connection) (msg : TurnMessage)
  | channelData (conn : Connection) (bytes : List UInt8)
  | toPeer (bytes : List UInt8) (peer : SocketAddress)
  deriving DecidableEq

/-- `TurnServer::SendStun`. -/
def sendStun (cfg : Config) (conn : Connection) (msg : TurnMessage) :
    Output :=
  .stun conn
    (if cfg.software.isEmpty then msg
      else addAttribute (.newByteString STUN_ATTR_SOFTWARE cfg.software) msg)

/-- `TurnServer::SendErrorResponse`. -/
def sendErrorResponse (cfg : Config) (conn : Connection) (req : TurnMessage)
    (error : TurnError) : Output :=
  sendStun cfg conn (initErrorResponse req error)

namespace Allocation

def new (conn : Connection) (externalSocket : SocketAddress)
    (key : List UInt8) : Allocation :=
  ⟨conn, externalSocket, key, [], [], [], [], [], []⟩

def sendResponse (cfg : Config) (a : Allocation) (msg : TurnMessage) :
    Output :=
  sendStun cfg a.conn (msg.addMessageIntegrity .turn cfg.hmac a.key).2

def sendBadRequestResponse (cfg : Config) (a : Allocation)
    (req : TurnMessage) : Output :=
  sendErrorResponse cfg a.conn req .badRequest

def findPermission (a : Allocation) (addr : IPAddress) : Option Permission :=
  a.perms.find? (·.peer == addr)

def hasPermission (a : Allocation) (addr : IPAddress) : Bool :=
  (a.findPermission addr).isSome

/-- `AddPermission`, which posts the timeout or posts it again. -/
def addPermission (now : ℕ) (addr : IPAddress) (a : Allocation) :
    Allocation :=
  let deadline := now + kPermissionTimeout
  match a.findPermission addr with
  | none => { a with perms := a.perms ++ [⟨addr, deadline⟩] }
  | some _ =>
    { a with
      perms := a.perms.map fun perm =>
        if perm.peer == addr then { perm with deadline := deadline }
        else perm }

/-- `FindChannel(channel_id)`. -/
def findChannelById (a : Allocation) (channelId : ℕ) : Option Channel :=
  a.channels.find? (·.id == channelId)

/-- `FindChannel(addr)`. -/
def findChannelByPeer (a : Allocation) (addr : SocketAddress) :
    Option Channel :=
  a.channels.find? (·.peer == addr)

def onPermissionDestroyed (perm : Permission) (a : Allocation) : Allocation :=
  { a with perms := a.perms.erase perm }

def onChannelDestroyed (channel : Channel) (a : Allocation) : Allocation :=
  { a with channels := a.channels.erase channel }

/-! ## Messages of the client -/

/-- `ComputeLifetime`, in seconds. -/
def computeLifetime (msg : TurnMessage) : ℕ :=
  let lifetime := kDefaultAllocationTimeout / 1000
  match getUInt32 msg STUN_ATTR_LIFETIME with
  | none => lifetime
  | some value => if value.toNat < lifetime then value.toNat else lifetime

def lifetimeAttr (lifetimeSecs : ℕ) : StunAttribute :=
  .newUInt32 STUN_ATTR_LIFETIME (UInt32.ofNat lifetimeSecs)

/-- `HandleAllocateRequest`.  The pending timeouts stay. -/
def handleAllocateRequest (cfg : Config) (now : ℕ) (msg : TurnMessage)
    (a : Allocation) : Allocation × List Output :=
  let lifetimeSecs := computeLifetime msg
  let response := initResponse msg
    |> addAttribute
      (.newXorAddress STUN_ATTR_XOR_MAPPED_ADDRESS a.conn.src.toSocketAddress)
    |> addAttribute
      (.newXorAddress STUN_ATTR_XOR_RELAYED_ADDRESS a.externalSocket)
    |> addAttribute (lifetimeAttr lifetimeSecs)
  ({ a with
      transactionId := msg.transactionId
      username := (getByteString msg STUN_ATTR_USERNAME).getD []
      timers := a.timers ++ [now + lifetimeSecs * 1000] },
    [a.sendResponse cfg response])

def handleRefreshRequest (cfg : Config) (now : ℕ) (msg : TurnMessage)
    (a : Allocation) : Allocation × List Output :=
  let lifetimeSecs := computeLifetime msg
  ({ a with timers := [now + lifetimeSecs * 1000] },
    [a.sendResponse cfg
      (addAttribute (lifetimeAttr lifetimeSecs) (initResponse msg))])

def handleSendIndication (msg : TurnMessage) (a : Allocation) :
    Allocation × List Output :=
  match getByteString msg STUN_ATTR_DATA,
      getAddress msg STUN_ATTR_XOR_PEER_ADDRESS with
  | some data, some peer =>
    if a.hasPermission peer.ip then (a, [.toPeer data peer]) else (a, [])
  | _, _ => (a, [])

def handleCreatePermissionRequest (cfg : Config) (now : ℕ)
    (msg : TurnMessage) (a : Allocation) : Allocation × List Output :=
  match getAddress msg STUN_ATTR_XOR_PEER_ADDRESS with
  | none => (a, [a.sendBadRequestResponse cfg msg])
  | some peer =>
    (a.addPermission now peer.ip, [a.sendResponse cfg (initResponse msg)])

/-- Adds the channel, or posts its timeout again. -/
def bindChannel (now channelId : ℕ) (peer : SocketAddress) (a : Allocation) :
    Allocation :=
  let deadline := now + kChannelTimeout
  match a.findChannelById channelId with
  | none => { a with channels := a.channels ++ [⟨channelId, peer, deadline⟩] }
  | some _ =>
    { a with
      channels := a.channels.map fun channel =>
        if channel.id == channelId then { channel with deadline := deadline }
        else channel }

def handleChannelBindRequest (cfg : Config) (now : ℕ) (msg : TurnMessage)
    (a : Allocation) : Allocation × List Output :=
  match getUInt32 msg STUN_ATTR_CHANNEL_NUMBER,
      getAddress msg STUN_ATTR_XOR_PEER_ADDRESS with
  | some channelAttr, some peer =>
    let channelId := (channelAttr >>> 16).toNat
    if channelId < kMinChannelNumber ∨ channelId > kMaxChannelNumber then
      (a, [a.sendBadRequestResponse cfg msg])
    else if a.findChannelById channelId ≠ a.findChannelByPeer peer then
      (a, [a.sendBadRequestResponse cfg msg])
    else
      ((a.bindChannel now channelId peer).addPermission now peer.ip,
        [a.sendResponse cfg (initResponse msg)])
  | _, _ => (a, [a.sendBadRequestResponse cfg msg])

def handleTurnMessage (cfg : Config) (now : ℕ) (msg : TurnMessage)
    (a : Allocation) : Allocation × List Output :=
  if msg.type = STUN_ALLOCATE_REQUEST then
    a.handleAllocateRequest cfg now msg
  else if msg.type = TURN_REFRESH_REQUEST then
    a.handleRefreshRequest cfg now msg
  else if msg.type = TURN_SEND_INDICATION then a.handleSendIndication msg
  else if msg.type = TURN_CREATE_PERMISSION_REQUEST then
    a.handleCreatePermissionRequest cfg now msg
  else if msg.type = TURN_CHANNEL_BIND_REQUEST then
    a.handleChannelBindRequest cfg now msg
  else (a, [])

theorem handleTurnMessage_of_allocate {cfg : Config} {now : ℕ}
    {msg : TurnMessage} {a : Allocation}
    (h : msg.type = STUN_ALLOCATE_REQUEST) :
    a.handleTurnMessage cfg now msg = a.handleAllocateRequest cfg now msg :=
  if_pos h

/-- `HandleChannelData`, which sends all that follows the header. -/
def handleChannelData (data : Buffer) (a : Allocation) : List Output :=
  match a.findChannelById (getBE16 data 0).toNat with
  | none => []
  | some channel =>
    [.toPeer (data.read ⟨TURN_CHANNEL_HEADER_SIZE,
      data.size - TURN_CHANNEL_HEADER_SIZE⟩) channel.peer]

/-- The indication of `OnExternalPacket`, whose id is random. -/
def dataIndication (transactionId data : List UInt8) (addr : SocketAddress) :
    TurnMessage :=
  ((StunMessage.new.setType TURN_DATA_INDICATION.toNat
      |>.setTransactionID transactionId)
    |> addAttribute (.newXorAddress STUN_ATTR_XOR_PEER_ADDRESS addr))
    |> addAttribute (.newByteString STUN_ATTR_DATA data)

def onExternalPacket (cfg : Config) (transactionId data : List UInt8)
    (addr : SocketAddress) (a : Allocation) : List Output :=
  match a.findChannelByPeer addr with
  | some channel =>
    [.channelData a.conn (writeUInt16 (UInt16.ofNat channel.id) ++
      writeUInt16 (UInt16.ofNat data.length) ++ data)]
  | none =>
    if a.hasPermission addr.ip then
      [sendStun cfg a.conn (dataIndication transactionId data addr)]
    else []

end Allocation

end WebrtcWinXp.Turn
