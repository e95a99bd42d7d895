import WebrtcWinXp.Relay.Table
import WebrtcWinXp.Turn.Message
import WebrtcWinXp.Support.Transition

/-!
# The relay server

Internal clients allocate, which gives them connections of the binding with
their user name, and send through external connections of that binding.
Packets of an external connection are forwarded to an internal client of its
binding.
-/

namespace WebrtcWinXp.Relay

open Support Stun
open Turn (getByteString getUInt32 getAddress chars getStunErrorResponseType
  STUN_ALLOCATE_REQUEST STUN_ALLOCATE_RESPONSE STUN_ATTR_USERNAME
  STUN_ATTR_ERROR_CODE STUN_ATTR_LIFETIME STUN_ATTR_DATA)

abbrev RelayMessage := StunMessage

def MAX_LIFETIME : UInt32 := 15 * 60 * 1000

def USERNAME_LENGTH : ℕ := 16

def TURN_MAGIC_COOKIE_VALUE : List UInt8 := [0x72, 0xC6, 0x4B, 0xC6]

def STUN_SEND_REQUEST : UInt16 := 0x0004
def STUN_SEND_RESPONSE : UInt16 := 0x0104
def STUN_DATA_INDICATION : UInt16 := 0x0115

def STUN_ATTR_MAPPED_ADDRESS : UInt16 := 0x0001
def STUN_ATTR_MAGIC_COOKIE : UInt16 := 0x000f
def STUN_ATTR_DESTINATION_ADDRESS : UInt16 := 0x0011
def STUN_ATTR_SOURCE_ADDRESS2 : UInt16 := 0x0012
def STUN_ATTR_OPTIONS : UInt16 := 0x8001

def hasMagicCookie (bytes : List UInt8) : Bool :=
  if bytes.length < 24 + TURN_MAGIC_COOKIE_VALUE.length then false
  else (bytes.drop 24).take TURN_MAGIC_COOKIE_VALUE.length =
    TURN_MAGIC_COOKIE_VALUE

/-- A message with the magic cookie, which all bindings share. -/
def cookieMessage (type : ℤ) : RelayMessage :=
  (StunMessage.new.setType type).addAttribute .relay
    (.newByteString STUN_ATTR_MAGIC_COOKIE TURN_MAGIC_COOKIE_VALUE)

/-- The message of `SendStunError`. -/
def errorMessage (msg : StunMessage) (errorCode : ℤ) (errorDesc : List UInt8) :
    RelayMessage :=
  let type := match getStunErrorResponseType msg.type with
    | some type => (type.toNat : ℤ)
    | none => -1
  ((cookieMessage type).setTransactionID msg.transactionId).addAttribute .relay
    (.newErrorCode STUN_ATTR_ERROR_CODE errorCode errorDesc)

def allocateResponse (request : StunMessage) (extAddr : SocketAddress)
    (lifetime : UInt32) : RelayMessage :=
  ((((cookieMessage STUN_ALLOCATE_RESPONSE.toNat).setTransactionID
    request.transactionId).addAttribute .relay
      (.newAddress STUN_ATTR_MAPPED_ADDRESS extAddr)).addAttribute .relay
      (.newUInt32 STUN_ATTR_LIFETIME (lifetime / 1000)))

def sendResponse (request : StunMessage) : RelayMessage :=
  ((cookieMessage STUN_SEND_RESPONSE.toNat).setTransactionID
    request.transactionId).addAttribute .relay
      (.newUInt32 STUN_ATTR_OPTIONS 0x01)

/-! ## The server -/

/-- The addresses of the sockets, which are different sockets on the two
sides. -/
structure Config where
  internalSockets : List SocketAddress
  externalSockets : List SocketAddress
  nonempty : externalSockets ≠ []
  disjoint : ∀ addr ∈ internalSockets, addr ∉ externalSockets

namespace Config

variable (cfg : Config)

/-- The socket of the connections that clients open, which is asserted to be
the only one. -/
def externalSocket : SocketAddress := cfg.externalSockets.head cfg.nonempty

/-- The external socket that is named to a client, which is random. -/
def randomSocket (rand : ℕ) : SocketAddress :=
  cfg.externalSockets.get ⟨rand % cfg.externalSockets.length,
    Nat.mod_lt _ (List.length_pos_of_ne_nil cfg.nonempty)⟩

theorem externalSocket_mem : cfg.externalSocket ∈ cfg.externalSockets :=
  List.head_mem cfg.nonempty

end Config

inductive Output where
  /-- A message from a socket of the server. -/
  | stun (ap : SocketAddressPair) (msg : RelayMessage)
  /-- Data to an external connection. -/
  | toExternal (ap : SocketAddressPair) (bytes : List UInt8)
  /-- Data of an external connection to an internal one of a binding, and
  whether it is wrapped in an indication. -/
  | toInternal (ext : SocketAddressPair) (binding : ℕ) (ap : SocketAddressPair)
      (bytes : List UInt8) (wrapped : Bool)

/-- Why an address pair has to do with a binding: it is a client that allocated
with the user name, it has sent the user name, or a client has opened the
connection. -/
inductive Admission where
  | client (ap : SocketAddressPair) (username : List UInt8) (binding : ℕ)
  | proved (ap : SocketAddressPair) (username : List UInt8) (binding : ℕ)
  | opened (ap : SocketAddressPair) (binding : ℕ)

structure RelayServer where
  table : Table
  locked : ℕ → Bool
  defaultDestination : ℕ → SocketAddress
  lastUsed : ℕ → UInt32
  /-- The bindings that wait for their timer. -/
  timers : List ℕ
  /-- The bindings that are to be deleted. -/
  disposals : List ℕ
  now : UInt32
  admitted : List Admission
  sent : List Output

namespace RelayServer

def new : RelayServer where
  table := .empty
  locked _ := false
  defaultDestination _ := ⟨.unspec, 0⟩
  lastUsed _ := 0
  timers := []
  disposals := []
  now := 0
  admitted := []
  sent := []

variable (cfg : Config) (s : RelayServer)

def faulted : RelayServer :=
  { s with
    table := s.table.faulted }

def send (output : Output) : RelayServer :=
  { s with
    sent := s.sent ++ [output] }

def noteUsed (binding : ℕ) : RelayServer :=
  { s with
    lastUsed := Function.update s.lastUsed binding s.now }

def lock (id : ℕ) : RelayServer :=
  { s with
    locked := Function.update s.locked id true }

/-- `SendStun` of a connection. -/
def sendStun (conn : Connection) (msg : RelayMessage) : RelayServer :=
  (s.noteUsed conn.binding).send (.stun conn.addrPair msg)

/-- `SendStunError`, which is no use of a binding. -/
def sendStunError (ap : SocketAddressPair) (msg : StunMessage)
    (errorCode : ℤ) (errorDesc : String) : RelayServer :=
  s.send (.stun ap (errorMessage msg errorCode (chars errorDesc)))

/-- The constructor of a connection, and its addition to its binding. -/
def newConnection (binding : ℕ) (ap : SocketAddressPair) (dir : Direction)
    (admission : Admission) : RelayServer :=
  { s.noteUsed binding with
    table := s.table.newConnection binding ap dir
    locked := Function.update s.locked s.table.nextConnection false
    defaultDestination :=
      Function.update s.defaultDestination s.table.nextConnection ⟨.unspec, 0⟩
    admitted := admission :: s.admitted }

def newBinding (username : List UInt8) (lifetime : UInt32) : RelayServer :=
  { s.noteUsed s.table.nextBinding with
    table := s.table.newBinding username lifetime
    timers := s.table.nextBinding :: s.timers }

/-- `GetInternalConnection`: the one that is locked to an address, or else the
first one. -/
def getInternalConnection (binding : ℕ) (extAddr : SocketAddress) : Option ℕ :=
  (s.table.bindingAt.find binding).bind fun b =>
    (b.internalConnections.find? fun id =>
      s.locked id && extAddr = s.defaultDestination id).or
        b.internalConnections.head?

def getExternalConnection (binding : ℕ) (extAddr : SocketAddress) : Option ℕ :=
  (s.table.bindingAt.find binding).bind fun b =>
    b.externalConnections.find? fun id =>
      (s.table.connectionAt.find id).any fun conn =>
        extAddr = conn.addrPair.source

/-- `Send` to an external connection. -/
def sendExternal (id : ℕ) (bytes : List UInt8) : RelayServer :=
  match s.table.connectionAt.find id with
  | none => s.faulted
  | some conn =>
    (s.noteUsed conn.binding).send (.toExternal conn.addrPair bytes)

/-- A packet of an external connection is sent to an internal one. -/
def forward (ext : Connection) (bytes : List UInt8) : RelayServer :=
  match s.getInternalConnection ext.binding ext.addrPair.source with
  | none => s.faulted
  | some id =>
    match s.table.connectionAt.find id with
    | none => s.faulted
    | some conn =>
      (s.noteUsed conn.binding).send
        (.toInternal ext.addrPair conn.binding conn.addrPair bytes
          !(s.locked id && ext.addrPair.source = s.defaultDestination id))

/-- `HandleStun` for a packet: the user name and the request. -/
def readRequest (bytes : List UInt8) (ap : SocketAddressPair) :
    RelayServer × Option (List UInt8 × StunMessage) :=
  match StunMessage.read .relay bytes with
  | none => (s, none)
  | some msg =>
    match getByteString msg STUN_ATTR_USERNAME with
    | none => (s.sendStunError ap msg 432 "Missing Username", none)
    | some username => (s, some (username, msg))

/-- `HandleStunAllocate` for a connection. -/
def allocate (conn : Connection) (request : StunMessage) (rand : ℕ) :
    RelayServer :=
  match s.table.bindingAt.find conn.binding with
  | none => s.faulted
  | some b =>
    s.sendStun conn
      (allocateResponse request (cfg.randomSocket rand) b.lifetime)

/-- The lifetime in milliseconds, as far as it fits in 32 bits. -/
def bindingLifetime (request : StunMessage) : UInt32 :=
  match getUInt32 request STUN_ATTR_LIFETIME with
  | none => MAX_LIFETIME
  | some value => min MAX_LIFETIME (value * 1000)

def findBinding (username : List UInt8) (request : StunMessage) :
    RelayServer × ℕ :=
  match s.table.bindings.find username with
  | some binding => (s, binding)
  | none =>
    (s.newBinding username (bindingLifetime request), s.table.nextBinding)

/-- `HandleStunAllocate` for a packet from a new client. -/
def allocateNew (bytes : List UInt8) (ap : SocketAddressPair) (rand : ℕ) :
    RelayServer :=
  match s.readRequest bytes ap with
  | (s, none) => s
  | (s, some (username, request)) =>
    if request.type ≠ STUN_ALLOCATE_REQUEST then
      s.sendStunError ap request 600 "Operation Not Supported"
    else
      let (s, binding) := s.findBinding username request
      let s := s.newConnection binding ap .internal
        (.client ap username binding)
      s.allocate cfg ⟨binding, ap⟩ request rand

/-- The external connection of a binding to an address, which is created if
there is none. -/
def openExternal (binding : ℕ) (extAddr : SocketAddress) : RelayServer × ℕ :=
  match s.getExternalConnection binding extAddr with
  | some id => (s, id)
  | none =>
    let ap : SocketAddressPair := ⟨extAddr, cfg.externalSocket⟩
    (s.newConnection binding ap .external (.opened ap binding),
      s.table.nextConnection)

/-- The end of `HandleStunSend`: a client may ask for data from the address to
come without an indication. -/
def answerSend (id : ℕ) (conn : Connection) (request : StunMessage)
    (extAddr : SocketAddress) : RelayServer :=
  match getUInt32 request STUN_ATTR_OPTIONS with
  | none => s
  | some options =>
    if options &&& 0x01 = 0 then s
    else
      let s :=
        { s with
          defaultDestination :=
            Function.update s.defaultDestination id extAddr }
      (s.lock id).sendStun conn (sendResponse request)

def handleStunSend (id : ℕ) (conn : Connection) (request : StunMessage) :
    RelayServer :=
  match getAddress request STUN_ATTR_DESTINATION_ADDRESS,
      getByteString request STUN_ATTR_DATA with
  | some extAddr, some data =>
    let (s, ext) := s.openExternal cfg conn.binding extAddr
    let s := if s.locked ext then s.sendExternal ext data else s
    s.answerSend id conn request extAddr
  | _, _ => s.sendStunError conn.addrPair request 400 "Bad Request"

/-- `HandleStun` for a packet of a connection. -/
def handleStun (id : ℕ) (conn : Connection) (bytes : List UInt8) (rand : ℕ) :
    RelayServer :=
  match s.readRequest bytes conn.addrPair with
  | (s, none) => s
  | (s, some (username, request)) =>
    match s.table.bindingAt.find conn.binding with
    | none => s.faulted
    | some b =>
      if username ≠ b.username then
        s.sendStunError conn.addrPair request 430 "Stale Credentials"
      else if request.type = STUN_SEND_REQUEST then
        s.handleStunSend cfg id conn request
      else if request.type = STUN_ALLOCATE_REQUEST then
        s.allocate cfg conn request rand
      else
        s.sendStunError conn.addrPair request 600 "Operation Not Supported"

def onInternalPacket (bytes : List UInt8) (ap : SocketAddressPair)
    (rand : ℕ) : RelayServer :=
  match s.table.connections.find ap with
  | none => s.allocateNew cfg bytes ap rand
  | some id =>
    match s.table.connectionAt.find id with
    | none => s.faulted
    | some conn =>
      if hasMagicCookie bytes then s.handleStun cfg id conn bytes rand
      else if !s.locked id then s
      else
        match s.getExternalConnection conn.binding
            (s.defaultDestination id) with
        | none => s
        | some ext => if s.locked ext then s.sendExternal ext bytes else s

def onExternalPacket (bytes : List UInt8) (ap : SocketAddressPair) :
    RelayServer :=
  match s.table.connections.find ap with
  | some id =>
    match s.table.connectionAt.find id with
    | none => s.faulted
    | some ext => (s.forward ext bytes).lock id
  | none =>
    match (StunMessage.read .relay bytes).bind fun msg =>
        getByteString msg STUN_ATTR_USERNAME with
    | none => s
    | some bytes' =>
      let username := bytes'.take USERNAME_LENGTH
      match s.table.bindings.find username with
      | none => s
      | some binding =>
        let id := s.table.nextConnection
        let s := (s.newConnection binding ap .external
          (.proved ap username binding)).lock id
        s.forward ⟨binding, ap⟩ bytes

/-- `OnMessage` of a binding for its timer. -/
def lifetimeTimer (binding : ℕ) : RelayServer :=
  match s.table.bindingAt.find binding with
  | none => s.faulted
  | some b =>
    if s.now ≥ s.lastUsed binding + b.lifetime then
      { s with
        timers := s.timers.filter (· ≠ binding)
        disposals := binding :: s.disposals }
    else s

/-- The destructor of a binding, which clears its messages. -/
def dispose (binding : ℕ) : RelayServer :=
  { s with
    table := s.table.deleteBinding binding
    timers := s.timers.filter (· ≠ binding)
    disposals := s.disposals.filter (· ≠ binding) }

end RelayServer

inductive Event where
  | clock (now : UInt32)
  | internalPacket (bytes : List UInt8) (ap : SocketAddressPair) (rand : ℕ)
  | externalPacket (bytes : List UInt8) (ap : SocketAddressPair)
  | lifetimeTimer (binding : ℕ)
  | dispose (binding : ℕ)

namespace RelayServer

/-- Packets come in through the sockets of the server. -/
def step (cfg : Config) (s : RelayServer) : Event → Option RelayServer
  | .clock now =>
    some
      { s with
        now := now }
  | .internalPacket bytes ap rand =>
    if ap.destination ∈ cfg.internalSockets then
      some (s.onInternalPacket cfg bytes ap rand)
    else none
  | .externalPacket bytes ap =>
    if ap.destination ∈ cfg.externalSockets then
      some (s.onExternalPacket bytes ap)
    else none
  | .lifetimeTimer binding =>
    if binding ∈ s.timers then some (s.lifetimeTimer binding) else none
  | .dispose binding =>
    if binding ∈ s.disposals then some (s.dispose binding) else none

end RelayServer

end WebrtcWinXp.Relay
