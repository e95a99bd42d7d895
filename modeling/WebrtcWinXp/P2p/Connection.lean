import WebrtcWinXp.P2p.Transport

/-!
# Connections

`Connection` of `port.cc`: the times of its pings and of what it received, and
the states that depend on them.  The times come from a clock, which is kept
general: the clock of the program counts milliseconds in 32 bits.
-/

namespace WebrtcWinXp.P2p

open Support

/-- The times of a clock.  A time that was not recorded yet is `unset`. -/
class Clock (τ : Type) extends Add τ, LT τ, LE τ where
  unset : τ
  last : τ
  millis : UInt32 → τ
  /-- `TimeDiff`. -/
  elapsed : (later earlier : τ) → UInt32

/-- `rtc::Time`. -/
instance : Clock UInt32 where
  unset := 0
  last := 0xFFFFFFFF
  millis ms := ms
  elapsed later earlier := later - earlier

def CONNECTION_READ_TIMEOUT : UInt32 := 30 * 1000

def CONNECTION_WRITE_TIMEOUT : UInt32 := 15 * 1000

def CONNECTION_WRITE_CONNECT_TIMEOUT : UInt32 := 5 * 1000

def CONNECTION_WRITE_CONNECT_FAILURES : ℕ := 5

def MINIMUM_RTT : UInt32 := 100

def MAXIMUM_RTT : UInt32 := 3000

def DEFAULT_RTT : UInt32 := MAXIMUM_RTT

def RTT_RATIO : UInt32 := 3

def conservativeRTTEstimate (rtt : UInt32) : UInt32 :=
  max MINIMUM_RTT (min MAXIMUM_RTT (2 * rtt))

inductive IceProtocolType where
  | ICEPROTO_GOOGLE
  | ICEPROTO_RFC5245
  | ICEPROTO_HYBRID
  deriving DecidableEq

inductive ReadState where
  | STATE_READ_INIT
  | STATE_READABLE
  | STATE_READ_TIMEOUT
  deriving DecidableEq

inductive WriteState where
  | STATE_WRITABLE
  | STATE_WRITE_UNRELIABLE
  | STATE_WRITE_INIT
  | STATE_WRITE_TIMEOUT
  deriving DecidableEq

/-- The value of the enumerator.  Better states have lower values. -/
def WriteState.value : WriteState → ℕ
  | STATE_WRITABLE => 0
  | STATE_WRITE_UNRELIABLE => 1
  | STATE_WRITE_INIT => 2
  | STATE_WRITE_TIMEOUT => 3

/-- The state of the connectivity check. -/
inductive CheckState where
  | STATE_WAITING
  | STATE_INPROGRESS
  | STATE_SUCCEEDED
  | STATE_FAILED
  deriving DecidableEq

/-- What a connection and its channel ask the local port. -/
structure ConnectionPort where
  network : ℕ
  generation : UInt32
  iceProtocol : IceProtocolType
  iceRole : IceRole
  deriving DecidableEq

/-- `requests_` are split into those that are still to be sent, and those that
were sent, with their `tstamp_`. -/
structure Connection (τ : Type) where
  /-- The address of the object. -/
  this : ℕ
  port : ConnectionPort
  localPriority : UInt32
  remotePriority : UInt32
  remoteGeneration : UInt32
  remoteIceLite : Bool
  readState : ReadState
  writeState : WriteState
  connected : Bool
  pruned : Bool
  state : CheckState
  unsent : List ℕ
  requests : List (ℕ × τ)
  rtt : UInt32
  lastPingSent : τ
  lastPingReceived : τ
  lastDataReceived : τ
  lastPingResponseReceived : τ
  pingsSinceLastResponse : List τ
  deriving DecidableEq

section

variable {τ : Type} [Clock τ] [DecidableLT τ] [DecidableLE τ]

def tooManyFailures (pingsSinceLastResponse : List τ) (maximumFailures : ℕ)
    (rttEstimate : UInt32) (now : τ) : Bool :=
  match pingsSinceLastResponse[maximumFailures - 1]? with
  | some ping =>
    decide (maximumFailures ≤ pingsSinceLastResponse.length) &&
      decide (ping + Clock.millis rttEstimate < now)
  | none => false

def tooLongWithoutResponse (pingsSinceLastResponse : List τ)
    (maximumTime : UInt32) (now : τ) : Bool :=
  match pingsSinceLastResponse.head? with
  | some ping => decide (ping + Clock.millis maximumTime < now)
  | none => false

namespace Connection

variable (c : Connection τ)

def new (this : ℕ) (port : ConnectionPort)
    (localPriority remotePriority remoteGeneration : UInt32)
    (remoteIceLite connected : Bool) : Connection τ where
  this := this
  port := port
  localPriority := localPriority
  remotePriority := remotePriority
  remoteGeneration := remoteGeneration
  remoteIceLite := remoteIceLite
  readState := .STATE_READ_INIT
  writeState := .STATE_WRITE_INIT
  connected := connected
  pruned := false
  state := .STATE_WAITING
  unsent := []
  requests := []
  rtt := DEFAULT_RTT
  lastPingSent := Clock.unset
  lastPingReceived := Clock.unset
  lastDataReceived := Clock.unset
  lastPingResponseReceived := Clock.unset
  pingsSinceLastResponse := []

def isGoogleIce : Bool := c.port.iceProtocol = .ICEPROTO_GOOGLE

def isStandardIce : Bool := c.port.iceProtocol = .ICEPROTO_RFC5245

def writable : Bool := c.writeState = .STATE_WRITABLE

/-- `priority`, whose doubled maximum is computed with 32 bits. -/
def priority : UInt64 :=
  let pair (g d : UInt32) : UInt64 :=
    ((min g d).toUInt64 <<< 32) +
      (2 * max g d + if d < g then 1 else 0).toUInt64
  match c.port.iceRole with
  | .ICEROLE_UNKNOWN => 0
  | .ICEROLE_CONTROLLING => pair c.localPriority c.remotePriority
  | .ICEROLE_CONTROLLED => pair c.remotePriority c.localPriority

def setReadState (value : ReadState) : Connection τ :=
  { c with readState := value }

def setWriteState (value : WriteState) : Connection τ :=
  { c with writeState := value }

def prune : Connection τ :=
  if c.pruned then c
  else
    { c with
      pruned := true
      unsent := []
      requests := []
      writeState := .STATE_WRITE_TIMEOUT }

/-- The check of the readable state in `UpdateState`. -/
def updateReadState (now : τ) : Connection τ :=
  if c.isGoogleIce && c.readState = .STATE_READABLE &&
      decide
        (c.lastPingReceived + Clock.millis CONNECTION_READ_TIMEOUT ≤ now) &&
      decide (c.lastDataReceived + Clock.millis CONNECTION_READ_TIMEOUT ≤ now)
  then c.setReadState .STATE_READ_TIMEOUT
  else c

def updateWritable (now : τ) : Connection τ :=
  if c.writeState = .STATE_WRITABLE &&
      tooManyFailures c.pingsSinceLastResponse
        CONNECTION_WRITE_CONNECT_FAILURES (conservativeRTTEstimate c.rtt) now &&
      tooLongWithoutResponse c.pingsSinceLastResponse
        CONNECTION_WRITE_CONNECT_TIMEOUT now
  then c.setWriteState .STATE_WRITE_UNRELIABLE
  else c

/-- A connection that is not writable times out. -/
def updateUnwritable (now : τ) : Connection τ :=
  if (c.writeState = .STATE_WRITE_UNRELIABLE ||
        c.writeState = .STATE_WRITE_INIT) &&
      tooLongWithoutResponse c.pingsSinceLastResponse
        CONNECTION_WRITE_TIMEOUT now
  then c.setWriteState .STATE_WRITE_TIMEOUT
  else c

def updateState (now : τ) : Connection τ :=
  ((c.updateReadState now).updateWritable now).updateUnwritable now

def ping (id : ℕ) (now : τ) : Connection τ :=
  { c with
    lastPingSent := now
    pingsSinceLastResponse := c.pingsSinceLastResponse ++ [now]
    unsent := c.unsent ++ [id]
    state := .STATE_INPROGRESS }

def receivedPing (now : τ) : Connection τ :=
  { c with
    lastPingReceived := now
    readState := .STATE_READABLE }

/-- A request is sent (`StunRequest::OnMessage`). -/
def sendRequest (id : ℕ) (now : τ) : Connection τ :=
  if c.unsent.contains id then
    { c with
      unsent := c.unsent.erase id
      requests := c.requests ++ [(id, now)] }
  else c

def removeRequest (id : ℕ) : Connection τ :=
  { c with requests := c.requests.filter fun request => request.1 ≠ id }

/-- `OnConnectionRequestResponse` for the request with a time stamp. -/
def onConnectionRequestResponse (tstamp now : τ) : Connection τ :=
  let c :=
    { c with
      writeState := .STATE_WRITABLE
      state := .STATE_SUCCEEDED }
  let c := if c.remoteIceLite then c.receivedPing now else c
  { c with
    pingsSinceLastResponse := []
    lastPingResponseReceived := now
    rtt :=
      ( RTT_RATIO * c.rtt + Clock.elapsed now tstamp) / ( RTT_RATIO + 1) }

/-- `OnConnectionRequestErrorResponse`, where an error that is not recoverable
kills the connection. -/
def onConnectionRequestErrorResponse (recoverable : Bool) : Connection τ :=
  if recoverable then c
  else
    { c with
      state := .STATE_FAILED
      writeState := .STATE_WRITE_TIMEOUT }

/-- `CheckResponse` for a success response. -/
def checkResponse (id : ℕ) (now : τ) : Connection τ :=
  match c.requests.find? fun request => request.1 = id with
  | some request =>
    (c.onConnectionRequestResponse request.2 now).removeRequest id
  | none => c

/-- `CheckResponse` for an error response. -/
def checkErrorResponse (id : ℕ) (recoverable : Bool) : Connection τ :=
  if c.requests.any fun request => request.1 = id then
    (c.onConnectionRequestErrorResponse recoverable).removeRequest id
  else c

def restart : Connection τ :=
  if !c.pruned && c.writeState = .STATE_WRITE_TIMEOUT then
    c.setWriteState .STATE_WRITE_INIT
  else c

def onBindingRequest (now : τ) : Connection τ := (c.receivedPing now).restart

def onBindingIndication (now : τ) : Connection τ :=
  if c.isStandardIce && c.readState = .STATE_READABLE then c.receivedPing now
  else c

def onData (now : τ) : Connection τ :=
  if c.readState = .STATE_READABLE then
    ({ c with lastDataReceived := now } : Connection τ).restart
  else c

end Connection

/-- What happens to a connection. -/
inductive ConnectionEvent where
  | ping (id : ℕ)
  | sendRequest (id : ℕ)
  | response (id : ℕ)
  | errorResponse (id : ℕ) (recoverable : Bool)
  | requestTimeout (id : ℕ)
  | bindingRequest
  | bindingIndication
  | data
  | updateState

def Connection.handle (c : Connection τ) (now : τ) :
    ConnectionEvent → Connection τ
  | .ping id => c.ping id now
  | .sendRequest id => c.sendRequest id now
  | .response id => c.checkResponse id now
  | .errorResponse id recoverable => c.checkErrorResponse id recoverable
  | .requestTimeout id => c.removeRequest id
  | .bindingRequest => c.onBindingRequest now
  | .bindingIndication => c.onBindingIndication now
  | .data => c.onData now
  | .updateState => c.updateState now

end

end WebrtcWinXp.P2p
