import WebrtcWinXp.Turn.Allocation
import WebrtcWinXp.Support.StdMap
import WebrtcWinXp.Support.Transition

/-!
# The TURN server

`TurnServer`: its sockets, the map from connections to allocations, the
handling of packets of clients and peers, and the timeouts.

Sockets and allocations are numbered, and a number is not used again.  An
allocation is an object on the heap that the map points to: an entry of the
map may outlive its allocation, and an allocation its socket.  The use of a
deleted object is recorded in `fault`.

Time passes up to the next pending message, which is then delivered.
-/

namespace WebrtcWinXp.Turn

open Support Stun

/-- A socket in `server_sockets_`.  A socket that was accepted reports when
it is closed. -/
structure InternalSocket where
  proto : ProtocolType
  remote : HostAddress
  accepted : Bool
  deriving DecidableEq

/-- A stream socket receives from its remote address only. -/
def InternalSocket.ReceivesFrom (internal : InternalSocket)
    (addr : HostAddress) : Prop :=
  internal.accepted = true ∨ internal.proto ≠ .udp → addr = internal.remote

instance (internal : InternalSocket) (addr : HostAddress) :
    Decidable (internal.ReceivesFrom addr) :=
  inferInstanceAs (Decidable (_ → _))

/-- `TurnServer`. -/
structure Server where
  now : ℕ
  serverSockets : StdMap ℕ InternalSocket
  serverListenSockets : StdMap ℕ ProtocolType
  nextSocket : ℕ
  allocations : SearchTree Connection ℕ
  heap : StdMap ℕ Allocation
  nextAllocation : ℕ
  fault : Bool

def Output.socket : Output → Option ℕ
  | .stun conn _ => some conn.socket
  | .channelData conn _ => some conn.socket
  | .toPeer _ _ => none

/-- The times at which an allocation and its parts have pending messages. -/
def Allocation.due (a : Allocation) : List ℕ :=
  a.timers ++ (a.perms.map Permission.deadline ++
    a.channels.map Channel.deadline)

namespace Server

def new (now : ℕ) : Server :=
  ⟨now, .empty, .empty, 0, .leaf, .empty, 0, false⟩

/-- `FindAllocation`, as the number of the allocation. -/
def findAllocation (s : Server) (conn : Connection) : Option ℕ :=
  (s.allocations.find Connection.less conn).map Prod.snd

/-- The object behind a pointer: `none` when it is deleted. -/
def deref (s : Server) : Option ℕ → Option (Option (ℕ × Allocation))
  | none => some none
  | some id => (s.heap.find id).map fun a => some (id, a)

def store (s : Server) (id : ℕ) (a : Allocation) : Server :=
  { s with heap := s.heap.assign id a }

/-- Records that deleted sockets were sent through. -/
def deliver (r : Server × List Output) : Server × List Output :=
  ({ r.1 with
      fault := r.1.fault || r.2.any fun output =>
        output.socket.any fun socket =>
          (r.1.serverSockets.find socket).isNone },
    r.2)

def addInternalSocket (socket : InternalSocket) (s : Server) : Server :=
  { s with
    serverSockets := s.serverSockets.assign s.nextSocket socket
    nextSocket := s.nextSocket + 1 }

def addInternalServerSocket (proto : ProtocolType) (s : Server) : Server :=
  { s with
    serverListenSockets := s.serverListenSockets.assign s.nextSocket proto
    nextSocket := s.nextSocket + 1 }

def destroyInternalSocket (socket : ℕ) (s : Server) : Server :=
  match s.serverSockets.find socket with
  | none => s
  | some _ => { s with serverSockets := s.serverSockets.erase socket }

/-- The key that `GetKey` stores, empty when it stores none. -/
def getKey (cfg : Config) (msg : TurnMessage) : List UInt8 :=
  match getByteString msg STUN_ATTR_USERNAME, cfg.authHook with
  | some username, some getKey => getKey username cfg.realm
  | _, _ => []

/-- The key that `HandleStunMessage` validates with: an existing allocation
has it. -/
def keyOf (cfg : Config) (msg : TurnMessage) :
    Option (ℕ × Allocation) → List UInt8
  | none => getKey cfg msg
  | some (_, a) => a.key

def sendErrorResponseWithRealmAndNonce (cfg : Config) (now : ℕ)
    (conn : Connection) (msg : TurnMessage) (error : TurnError) : Output :=
  sendStun cfg conn
    (initErrorResponse msg error
      |> addAttribute (.newByteString STUN_ATTR_NONCE
        (generateNonce cfg.hmacMd5 cfg.nonceKey now))
      |> addAttribute (.newByteString STUN_ATTR_REALM cfg.realm))

/-- `CheckAuthorization`: the error response, or the allocation with its last
nonce set. -/
def checkAuthorization (cfg : Config) (now : ℕ) (conn : Connection)
    (msg : TurnMessage) (data : Buffer) (key : List UInt8)
    (allocation : Option (ℕ × Allocation)) :
    Except Output (Option (ℕ × Allocation)) :=
  match getByteString msg STUN_ATTR_MESSAGE_INTEGRITY with
  | none =>
    .error (sendErrorResponseWithRealmAndNonce cfg now conn msg
      .unauthorized)
  | some _ =>
    match getByteString msg STUN_ATTR_USERNAME,
        getByteString msg STUN_ATTR_REALM,
        getByteString msg STUN_ATTR_NONCE with
    | some _, some _, some nonce =>
      if !validateNonce cfg.hmacMd5 cfg.nonceKey now nonce then
        .error (sendErrorResponseWithRealmAndNonce cfg now conn msg
          .staleNonce)
      else if key.isEmpty ||
          !StunMessage.validateMessageIntegrity cfg.hmac data key then
        .error (sendErrorResponseWithRealmAndNonce cfg now conn msg
          .unauthorized)
      else if cfg.enableOtuNonce &&
          allocation.any fun x => x.2.lastNonce == nonce then
        .error (sendErrorResponseWithRealmAndNonce cfg now conn msg
          .staleNonce)
      else
        .ok (allocation.map fun x => (x.1, { x.2 with lastNonce := nonce }))
    | _, _, _ => .error (sendErrorResponse cfg conn msg .badRequest)

/-- The check of `HandleStunMessage`, which only requests have to pass. -/
def authorize (cfg : Config) (now : ℕ) (conn : Connection)
    (msg : TurnMessage) (data : Buffer) (allocation : Option (ℕ × Allocation)) :
    Except Output (Option (ℕ × Allocation)) :=
  if isStunRequestType msg.type then
    checkAuthorization cfg now conn msg data (keyOf cfg msg allocation)
      allocation
  else .ok allocation

/-! ## Messages of clients -/

def handleBindingRequest (cfg : Config) (conn : Connection)
    (req : TurnMessage) : Output :=
  sendStun cfg conn
    (addAttribute
      (.newXorAddress STUN_ATTR_XOR_MAPPED_ADDRESS conn.src.toSocketAddress)
      (initResponse req))

/-- `CreateAllocation`, given the local address of the external socket, with
the request that the new allocation then handles. -/
def createAllocation (cfg : Config) (conn : Connection)
    (externalSocket : SocketAddress) (key : List UInt8) (msg : TurnMessage)
    (s : Server) : Server × List Output :=
  let id := s.nextAllocation
  let r := (Allocation.new conn externalSocket key).handleTurnMessage cfg
    s.now msg
  ({ s with
      allocations :=
        s.allocations.assign Connection.less cfg.rebalance conn id
      heap := s.heap.assign id r.1
      nextAllocation := id + 1 },
    r.2)

/-- `TurnServer::HandleAllocateRequest`.  The external socket is `none` when
it cannot be created. -/
def handleAllocateRequest (cfg : Config) (conn : Connection)
    (msg : TurnMessage) (key : List UInt8)
    (externalSocket : Option SocketAddress) (s : Server) :
    Server × List Output :=
  match getUInt32 msg STUN_ATTR_REQUESTED_TRANSPORT with
  | none => (s, [sendErrorResponse cfg conn msg .badRequest])
  | some transport =>
    if (transport >>> 24).toNat ≠ IPPROTO_UDP then
      (s, [sendErrorResponse cfg conn msg .unsupportedProtocol])
    else
      match externalSocket with
      | none => (s, [sendErrorResponse cfg conn msg .serverError])
      | some addr => s.createAllocation cfg conn addr key msg

/-- The end of `HandleStunMessage`, for an authorised message. -/
def dispatch (cfg : Config) (conn : Connection) (msg : TurnMessage)
    (key : List UInt8) (externalSocket : Option SocketAddress) (s : Server) :
    Option (ℕ × Allocation) → Server × List Output
  | none =>
    if msg.type = STUN_ALLOCATE_REQUEST then
      s.handleAllocateRequest cfg conn msg key externalSocket
    else (s, [sendErrorResponse cfg conn msg .allocationMismatch])
  | some (id, a) =>
    if msg.type ≠ STUN_ALLOCATE_REQUEST ∨
        msg.transactionId = a.transactionId then
      if isStunRequestType msg.type = true ∧
          (getByteString msg STUN_ATTR_USERNAME).getD [] ≠ a.username then
        (s.store id a, [sendErrorResponse cfg conn msg .wrongCredentials])
      else
        let r := a.handleTurnMessage cfg s.now msg
        (s.store id r.1, r.2)
    else
      (s.store id a, [sendErrorResponse cfg conn msg .allocationMismatch])

/-- `HandleStunMessage` after `Read`. -/
def handleTurnMessage (cfg : Config) (conn : Connection) (msg : TurnMessage)
    (data : Buffer) (externalSocket : Option SocketAddress) (s : Server) :
    Server × List Output :=
  if msg.type = STUN_BINDING_REQUEST then
    (s, [handleBindingRequest cfg conn msg])
  else
    match s.deref (s.findAllocation conn) with
    | none => ({ s with fault := true }, [])
    | some allocation =>
      match authorize cfg s.now conn msg data allocation with
      | .error response => (s, [response])
      | .ok authorized =>
        s.dispatch cfg conn msg (keyOf cfg msg allocation) externalSocket
          authorized

def handleStunMessage (cfg : Config) (conn : Connection) (data : Buffer)
    (externalSocket : Option SocketAddress) (s : Server) :
    Server × List Output :=
  match StunMessage.read .turn (data.read ⟨0, data.size⟩) with
  | none => (s, [])
  | some msg => s.handleTurnMessage cfg conn msg data externalSocket

/-- `Allocation::HandleChannelData`, through a pointer. -/
def handleChannelData (conn : Connection) (data : Buffer) (s : Server) :
    Server × List Output :=
  match s.deref (s.findAllocation conn) with
  | none => ({ s with fault := true }, [])
  | some none => (s, [])
  | some (some (_, a)) => (s, a.handleChannelData data)

/-- `OnInternalPacket`, after the connection is made. -/
def onInternalPacket (cfg : Config) (conn : Connection) (data : Buffer)
    (externalSocket : Option SocketAddress) (s : Server) :
    Server × List Output :=
  if data.size < TURN_CHANNEL_HEADER_SIZE then (s, [])
  else if !isTurnChannelData (getBE16 data 0) then
    s.handleStunMessage cfg conn data externalSocket
  else s.handleChannelData conn data

/-- `OnAllocationDestroyed`, and the deletion of the allocation. -/
def onAllocationDestroyed (cfg : Config) (id : ℕ) (a : Allocation)
    (s : Server) : Server :=
  let s :=
    match s.serverSockets.find a.conn.socket with
    | none => { s with fault := true }
    | some socket =>
      if socket.proto ≠ ProtocolType.udp then
        s.destroyInternalSocket a.conn.socket
      else s
  { s with
    allocations := s.allocations.erase Connection.less cfg.rebalance a.conn
    heap := s.heap.erase id }

/-- What happens to a server.  A packet of a peer is one datagram. -/
inductive Event where
  | addInternalSocket (proto : ProtocolType) (remote : HostAddress)
  | addInternalServerSocket (proto : ProtocolType)
  | acceptConnection (serverSocket : ℕ) (remote : HostAddress)
  | internalSocketClose (socket : ℕ)
  | internalPacket (socket : ℕ) (data : Buffer) (addr : HostAddress)
      (externalSocket : Option SocketAddress)
  | externalPacket (id : ℕ) (data : List UInt8) (addr : SocketAddress)
      (transactionId : List UInt8)
  | advance (now : ℕ)
  | allocationTimeout (id : ℕ)
  | permissionTimeout (id : ℕ) (perm : Permission)
  | channelTimeout (id : ℕ) (channel : Channel)

/-- `Connection(addr, proto, socket)`. -/
def connection (socket : ℕ) (addr : HostAddress) (internal : InternalSocket) :
    Connection :=
  ⟨addr, internal.remote, internal.proto, socket⟩

/-- No message is pending before `now`. -/
def Idle (s : Server) (now : ℕ) : Prop :=
  ∀ id < s.nextAllocation, ∀ a ∈ s.heap.find id, ∀ due ∈ a.due, now ≤ due

instance (s : Server) (now : ℕ) : Decidable (s.Idle now) :=
  inferInstanceAs (Decidable (∀ id < s.nextAllocation, ∀ a ∈ s.heap.find id,
    ∀ due ∈ a.due, now ≤ due))

/-- The state after an event and what is sent, where the event can happen. -/
def step (cfg : Config) (s : Server) : Event → Option (Server × List Output)
  | .addInternalSocket proto remote =>
    some (s.addInternalSocket ⟨proto, remote, false⟩, [])
  | .addInternalServerSocket proto =>
    some (s.addInternalServerSocket proto, [])
  | .acceptConnection serverSocket remote =>
    (s.serverListenSockets.find serverSocket).map fun proto =>
      (s.addInternalSocket ⟨proto, remote, true⟩, [])
  | .internalSocketClose socket =>
    (s.serverSockets.find socket).bind fun internal =>
      if internal.accepted then some (s.destroyInternalSocket socket, [])
      else none
  | .internalPacket socket data addr externalSocket =>
    (s.serverSockets.find socket).bind fun internal =>
      if internal.ReceivesFrom addr then
        some (deliver (s.onInternalPacket cfg
          (connection socket addr internal) data externalSocket))
      else none
  | .externalPacket id data addr transactionId =>
    (s.heap.find id).bind fun a =>
      if data.length < 2 ^ 16 then
        some (deliver (s, a.onExternalPacket cfg transactionId data addr))
      else none
  | .advance now =>
    if s.now ≤ now ∧ s.Idle now then some ({ s with now := now }, [])
    else none
  | .allocationTimeout id =>
    (s.heap.find id).bind fun a =>
      if a.timers.any (· ≤ s.now) then
        some (s.onAllocationDestroyed cfg id a, [])
      else none
  | .permissionTimeout id perm =>
    (s.heap.find id).bind fun a =>
      if perm ∈ a.perms ∧ perm.deadline ≤ s.now then
        some (s.store id (a.onPermissionDestroyed perm), [])
      else none
  | .channelTimeout id channel =>
    (s.heap.find id).bind fun a =>
      if channel ∈ a.channels ∧ channel.deadline ≤ s.now then
        some (s.store id (a.onChannelDestroyed channel), [])
      else none

end Server

end WebrtcWinXp.Turn
