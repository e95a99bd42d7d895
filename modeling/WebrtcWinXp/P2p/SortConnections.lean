import WebrtcWinXp.P2p.Connection

/-!
# The connections of a channel

`P2PTransportChannel` of `p2ptransportchannel.cc`: how its connections are
compared, sorted and pruned, and which one of them is pinged next.
-/

namespace WebrtcWinXp.P2p

/-- The minimum improvement in RTT that justifies a switch. -/
def kMinImprovement : ℕ := 10

def MAX_CURRENT_WRITABLE_DELAY : UInt32 := 900

section

variable {τ : Type}

/-- The generations of a connection on both sides. -/
def Connection.generations (c : Connection τ) : UInt32 :=
  c.remoteGeneration + c.port.generation

def compareConnectionCandidates (a b : Connection τ) : ℤ :=
  if a.priority > b.priority then 1
  else if a.priority < b.priority then -1
  else (a.generations - b.generations).toInt32.toInt

def compareConnections (a b : Connection τ) : ℤ :=
  if a.writeState.value < b.writeState.value then 1
  else if a.writeState.value > b.writeState.value then -1
  else compareConnectionCandidates a b

/-- `ConnectionCompare`: whether `a` is sorted before `b`. -/
def connectionCompare (a b : Connection τ) : Bool :=
  if compareConnections a b > 0 then true
  else if compareConnections a b < 0 then false
  else a.rtt < b.rtt

def shouldSwitch : Option (Connection τ) → Option (Connection τ) → Bool
  | none, none => false
  | some a, some b =>
    if a.this = b.this then false
    else if compareConnections a b < 0 then true
    else if compareConnections a b > 0 then false
    else b.rtt.toNat ≤ a.rtt.toNat + kMinImprovement
  | _, _ => true

/-- `std::stable_sort` with `ConnectionCompare`. -/
def sortByPreference (connections : List (Connection τ)) :
    List (Connection τ) :=
  connections.insertionSort fun a b => connectionCompare b a = false

/-- Some flags are left out that only decide which events are posted. -/
structure P2PTransportChannel (τ : Type) where
  protocolType : IceProtocolType
  iceRole : IceRole
  connections : List (Connection τ)
  /-- The address of `best_connection_`. -/
  bestConnection : Option ℕ
  writable : Bool
  wasWritable : Bool
  readable : Bool
  deriving DecidableEq

namespace P2PTransportChannel

def new (protocolType : IceProtocolType) (iceRole : IceRole) :
    P2PTransportChannel τ :=
  ⟨protocolType, iceRole, [], none, false, false, false⟩

variable (ch : P2PTransportChannel τ)

def find (this : ℕ) : Option (Connection τ) :=
  ch.connections.find? fun c => c.this = this

def best : Option (Connection τ) := ch.bestConnection.bind ch.find

def addConnection (c : Connection τ) : P2PTransportChannel τ :=
  { ch with connections := ch.connections ++ [c] }

def modify (this : ℕ) (f : Connection τ → Connection τ) :
    P2PTransportChannel τ :=
  { ch with
    connections := ch.connections.map fun c =>
      if c.this = this then f c else c }

/-- In RFC 5245 mode only the controlling side selects a connection. -/
def selects : Bool :=
  ch.protocolType ≠ .ICEPROTO_RFC5245 || ch.iceRole = .ICEROLE_CONTROLLING

def switchToTop : P2PTransportChannel τ :=
  if ch.selects && shouldSwitch ch.best ch.connections.head? then
    { ch with bestConnection := ch.connections.head?.map Connection.this }
  else ch

def getBestConnectionOnNetwork (network : ℕ) : Option (Connection τ) :=
  match ch.best with
  | some best =>
    if best.port.network = network then some best
    else ch.connections.find? fun c => c.port.network = network
  | none => ch.connections.find? fun c => c.port.network = network

def pruneNetwork (network : ℕ) : P2PTransportChannel τ :=
  match ch.getBestConnectionOnNetwork network with
  | some primier =>
    if primier.writable then
      { ch with
        connections := ch.connections.map fun c =>
          if decide (c.this ≠ primier.this) && c.port.network = network &&
              decide (0 ≤ compareConnectionCandidates primier c)
          then c.prune else c }
    else ch
  | none => ch

def pruneConnections : P2PTransportChannel τ :=
  (ch.connections.map fun c => c.port.network).dedup.foldl pruneNetwork ch

def handleWritable : P2PTransportChannel τ :=
  { ch with
    wasWritable := true
    writable := true }

def handleNotWritable : P2PTransportChannel τ :=
  if ch.wasWritable then
    { ch with
      wasWritable := false
      writable := false }
  else ch

/-- The end of `SortConnections`; when all connections are timed out the
channel is treated as not writable. -/
def updateWritable : P2PTransportChannel τ :=
  if ch.best.any Connection.writable then ch.handleWritable
  else ch.handleNotWritable

def updateChannelState : P2PTransportChannel τ :=
  { ch with
    readable := ch.connections.any fun c => c.readState = .STATE_READABLE }

def sorted : P2PTransportChannel τ :=
  { ch with connections := sortByPreference ch.connections }

def isPingable (c : Connection τ) : Bool :=
  if !c.connected then false
  else if ch.writable then decide (c.writeState ≠ .STATE_WRITE_TIMEOUT)
  else decide (c.writeState ≠ .STATE_WRITE_TIMEOUT) ||
    decide (c.readState ≠ .STATE_READ_TIMEOUT)

section

variable [Clock τ] [DecidableLT τ] [DecidableLE τ]

def updateConnectionStates (now : τ) : P2PTransportChannel τ :=
  { ch with
    connections := ch.connections.map fun c => c.updateState now }

def sortConnections (now : τ) : P2PTransportChannel τ :=
  let ch := ch.updateConnectionStates now
  if ch.protocolType = .ICEPROTO_HYBRID then ch.updateChannelState
  else ch.sorted.switchToTop.pruneConnections.updateWritable.updateChannelState

/-- One round of the loop of `FindNextPingableConnection`, with the oldest
connection and its time. -/
def older (oldest : Option ℕ × τ) (c : Connection τ) : Option ℕ × τ :=
  if ch.isPingable c && decide (c.lastPingSent < oldest.2) then
    (some c.this, c.lastPingSent)
  else oldest

/-- The best connection is writable and was not pinged for too long. -/
def isBestDue (now : τ) : Bool :=
  ch.best.any fun best => best.writable &&
    decide (best.lastPingSent + Clock.millis MAX_CURRENT_WRITABLE_DELAY ≤ now)

def findNextPingableConnection (now : τ) : Option ℕ :=
  if ch.isBestDue now then ch.bestConnection
  else (ch.connections.foldl ch.older (none, Clock.last)).1

end

end P2PTransportChannel

end

end WebrtcWinXp.P2p
