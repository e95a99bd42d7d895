import WebrtcWinXp.Support.Transition
import Mathlib.Data.List.Basic

/-!
# The DTLS wrapper of a transport channel

`DtlsTransportChannelWrapper` of `dtlstransportchannel.cc` over a lower
channel.  The DTLS stack is an oracle: what it answers when it is set up and
started, and the events that it signals, come with the events of a run.  A
method that uses a stream or an identity that is missing has no result.
-/

namespace WebrtcWinXp.Dtls

def kDtlsRecordHeaderLen : ℕ := 13

def kMinRtpPacketLen : ℕ := 12

def isDtlsPacket (data : List UInt8) : Bool :=
  data.length ≥ kDtlsRecordHeaderLen &&
    (data.getD 0 0 > 19 && data.getD 0 0 < 64)

def isRtpPacket (data : List UInt8) : Bool :=
  data.length ≥ kMinRtpPacketLen && data.getD 0 0 &&& 0xC0 == 0x80

/-- The length of the first record after its header. -/
def recordLen (data : List UInt8) : ℕ :=
  (data.getD 11 0).toNat * 256 + (data.getD 12 0).toNat

/-- The loop of `HandleDtlsPacket`: the packet is a sequence of records. -/
def isRecords (data : List UInt8) : Bool :=
  if data = [] then true
  else if data.length < kDtlsRecordHeaderLen then false
  else if recordLen data + kDtlsRecordHeaderLen > data.length then false
  else isRecords (data.drop (recordLen data + kDtlsRecordHeaderLen))
termination_by data.length
decreasing_by
  simp only [List.length_drop, kDtlsRecordHeaderLen] at *
  omega

/-! ## The wrapper -/

inductive State where
  | STATE_NONE
  | STATE_OFFERED
  | STATE_ACCEPTED
  | STATE_STARTED
  | STATE_OPEN
  | STATE_CLOSED
  deriving DecidableEq, Repr

def State.index : State → ℕ
  | .STATE_NONE => 0
  | .STATE_OFFERED => 1
  | .STATE_ACCEPTED => 2
  | .STATE_STARTED => 3
  | .STATE_OPEN => 4
  | .STATE_CLOSED => 5

inductive SSLRole where
  | SSL_CLIENT
  | SSL_SERVER
  deriving DecidableEq, Repr

/-- What the wrapper signals to its user. -/
inductive Signal where
  | readPacket (data : List UInt8) (bypass : Bool)
  | readableState
  | writableState
  | readyToSend
  deriving DecidableEq, Repr

/-- What a method does for its caller: it hands an application packet to the
lower channel or to the DTLS stream, or it signals upwards.  The state and
whether the DTLS stream has been opened are those at that moment. -/
inductive Output where
  | sendPacket (data : List UInt8) (bypass : Bool) (state : State)
  | writeAll (data : List UInt8)
  | signal (signal : Signal) (opened : Bool)
  deriving DecidableEq, Repr

/-- What can be missing when a method uses it. -/
inductive Part where
  | dtls
  | downward
  | identity
  deriving DecidableEq, Repr

/-- The wrapped channel. -/
structure Lower where
  readable : Bool
  writable : Bool
  deriving DecidableEq, Repr

/-- The DTLS stream, with the downward stream that it owns.  It is opened by
the event with which it brings the wrapper to `STATE_OPEN`. -/
structure Stream where
  downward : ℕ
  opened : Bool
  deriving DecidableEq, Repr

/-- `DtlsTransportChannelWrapper`.  Identities and streams are known by
number, and `created` counts the downward streams. -/
structure Wrapper where
  lower : Lower
  dtls : Option Stream
  downward : Option ℕ
  created : ℕ
  srtpCiphers : List (List UInt8)
  dtlsState : State
  localIdentity : Option ℕ
  sslRole : SSLRole
  remoteFingerprintValue : List UInt8
  remoteFingerprintAlgorithm : List UInt8
  readable : Bool
  writable : Bool
  outputs : List Output
  deriving DecidableEq, Repr

/-- What the stack answers when a stream is set up: whether the adapter is
created and whether it takes the digest and the ciphers. -/
structure Setup where
  created : Bool
  digestSet : Bool
  ciphersSet : Bool
  deriving DecidableEq, Repr

namespace Wrapper

/-- The constructor, over a channel that was just created. -/
def new : Wrapper :=
  { lower := ⟨false, false⟩
    dtls := none
    downward := none
    created := 0
    srtpCiphers := []
    dtlsState := .STATE_NONE
    localIdentity := none
    sslRole := .SSL_CLIENT
    remoteFingerprintValue := []
    remoteFingerprintAlgorithm := []
    readable := false
    writable := false
    outputs := [] }

/-- The stream behind `dtls_`. -/
def useDtls (w : Wrapper) : Except Part Stream :=
  match w.dtls with
  | some stream => .ok stream
  | none => .error .dtls

/-- The stream behind `downward_`, which the DTLS stream owns. -/
def useDownward (w : Wrapper) : Except Part ℕ :=
  match w.downward, w.dtls with
  | some downward, some stream =>
    if downward = stream.downward then .ok downward else .error .downward
  | _, _ => .error .downward

def useIdentity (w : Wrapper) : Except Part ℕ :=
  match w.localIdentity with
  | some identity => .ok identity
  | none => .error .identity

def signal (signal : Signal) (w : Wrapper) : Wrapper :=
  { w with
    outputs := w.outputs ++ [.signal signal (w.dtls.any (·.opened))] }

/-- `TransportChannel::set_readable`. -/
def setReadable (readable : Bool) (w : Wrapper) : Wrapper :=
  if w.readable = readable then w
  else signal .readableState { w with readable := readable }

/-- `TransportChannel::set_writable`. -/
def setWritable (writable : Bool) (w : Wrapper) : Wrapper :=
  if w.writable = writable then w
  else
    let w : Wrapper := { w with writable := writable }
    signal .writableState (if writable then w.signal .readyToSend else w)

/-- `SetupDtls`: its result and the wrapper. -/
def setupDtls (setup : Setup) (w : Wrapper) : Except Part (Bool × Wrapper) :=
  let downward := w.created
  let w : Wrapper := { w with created := w.created + 1 }
  if ¬setup.created then .ok (false, { w with dtls := none })
  else
    let w : Wrapper := { w with
      dtls := some ⟨downward, false⟩
      downward := some downward }
    match w.useIdentity with
    | .error part => .error part
    | .ok _ =>
      if ¬setup.digestSet then .ok (false, w)
      else if w.srtpCiphers ≠ [] ∧ ¬setup.ciphersSet then .ok (false, w)
      else .ok (true, w)

/-- `MaybeStartDtls`, with what `StartSSLWithPeer` answers. -/
def maybeStartDtls (started : Bool) (w : Wrapper) : Except Part Wrapper :=
  if w.lower.writable then
    match w.useDtls with
    | .error part => .error part
    | .ok _ =>
      .ok { w with
        dtlsState := if started then .STATE_STARTED else .STATE_CLOSED }
  else .ok w

def setLocalIdentity (identity : Option ℕ) (w : Wrapper) : Bool × Wrapper :=
  if w.dtlsState ≠ .STATE_NONE then (identity == w.localIdentity, w)
  else
    match identity with
    | some identity =>
      (true, { w with
        localIdentity := some identity
        dtlsState := .STATE_OFFERED })
    | none => (true, w)

def setSslRole (role : SSLRole) (w : Wrapper) : Bool × Wrapper :=
  if w.dtlsState = .STATE_OPEN then (w.sslRole == role, w)
  else (true, { w with sslRole := role })

def setRemoteFingerprint (digestAlg digest : List UInt8) (setup : Setup)
    (w : Wrapper) : Except Part (Bool × Wrapper) :=
  if w.dtlsState ≠ .STATE_NONE ∧ w.remoteFingerprintValue = digest ∧
      digestAlg ≠ [] then .ok (true, w)
  else if w.dtlsState.index > State.STATE_OFFERED.index ∨
      w.dtlsState = .STATE_NONE ∧ digestAlg ≠ [] then .ok (false, w)
  else if digestAlg = [] then
    .ok (true, { w with dtlsState := .STATE_NONE })
  else
    let w : Wrapper := { w with
      remoteFingerprintValue := digest
      remoteFingerprintAlgorithm := digestAlg }
    match w.setupDtls setup with
    | .error part => .error part
    | .ok (false, w) => .ok (false, { w with dtlsState := .STATE_CLOSED })
    | .ok (true, w) => .ok (true, { w with dtlsState := .STATE_ACCEPTED })

/-- `SetSrtpCiphers`, with what `GetDtlsSrtpCipher` answers. -/
def setSrtpCiphers (ciphers : List (List UInt8)) (hasCipher : Bool)
    (w : Wrapper) : Except Part (Bool × Wrapper) :=
  if w.srtpCiphers = ciphers then .ok (true, w)
  else if w.dtlsState = .STATE_STARTED then .ok (true, w)
  else if w.dtlsState = .STATE_OPEN then
    match w.useDtls with
    | .error part => .error part
    | .ok _ => .ok (hasCipher, w)
  else if w.dtlsState ≠ .STATE_NONE ∧ w.dtlsState ≠ .STATE_OFFERED ∧
      w.dtlsState ≠ .STATE_ACCEPTED then .ok (false, w)
  else .ok (true, { w with srtpCiphers := ciphers })

def getSrtpCipher (hasCipher : Bool) (w : Wrapper) :
    Except Part (Bool × Wrapper) :=
  if w.dtlsState ≠ .STATE_OPEN then .ok (false, w)
  else
    match w.useDtls with
    | .error part => .error part
    | .ok _ => .ok (hasCipher, w)

/-- `SendPacket`.  The answer of the lower channel or of the DTLS stream is
passed on. -/
def sendPacket (data : List UInt8) (bypass : Bool) (w : Wrapper) :
    Except Part Wrapper :=
  match w.dtlsState with
  | .STATE_OPEN =>
    if bypass then
      if ¬isRtpPacket data then .ok w
      else
        .ok { w with
          outputs := w.outputs ++ [.sendPacket data bypass w.dtlsState] }
    else
      match w.useDtls with
      | .error part => .error part
      | .ok _ => .ok { w with outputs := w.outputs ++ [.writeAll data] }
  | .STATE_NONE =>
    .ok { w with
      outputs := w.outputs ++ [.sendPacket data bypass w.dtlsState] }
  | .STATE_OFFERED | .STATE_STARTED | .STATE_ACCEPTED | .STATE_CLOSED => .ok w

def onReadableState (w : Wrapper) : Wrapper :=
  if w.dtlsState = .STATE_NONE ∨ w.dtlsState = .STATE_OPEN then
    w.setReadable w.lower.readable
  else w

def onWritableState (started : Bool) (w : Wrapper) : Except Part Wrapper :=
  match w.dtlsState with
  | .STATE_NONE | .STATE_OPEN => .ok (w.setWritable w.lower.writable)
  | .STATE_ACCEPTED => w.maybeStartDtls started
  | .STATE_OFFERED | .STATE_STARTED | .STATE_CLOSED => .ok w

def onReadyToSend (w : Wrapper) : Wrapper :=
  if w.writable then w.signal .readyToSend else w

/-- `set_readable` of the lower channel, which signals a change. -/
def lowerSetReadable (readable : Bool) (w : Wrapper) : Wrapper :=
  if w.lower.readable = readable then w
  else onReadableState { w with lower := { w.lower with readable := readable } }

/-- `set_writable` of the lower channel, which signals a change. -/
def lowerSetWritable (writable started : Bool) (w : Wrapper) :
    Except Part Wrapper :=
  if w.lower.writable = writable then .ok w
  else
    let w : Wrapper := { w with lower := { w.lower with writable := writable } }
    onWritableState started (if writable then w.onReadyToSend else w)

def handleDtlsPacket (data : List UInt8) (w : Wrapper) :
    Except Part Wrapper :=
  if ¬isRecords data then .ok w
  else
    match w.useDownward with
    | .error part => .error part
    | .ok _ => .ok w

def onReadPacket (data : List UInt8) (w : Wrapper) : Except Part Wrapper :=
  match w.dtlsState with
  | .STATE_NONE => .ok (w.signal (.readPacket data false))
  | .STATE_STARTED | .STATE_OPEN =>
    if isDtlsPacket data then w.handleDtlsPacket data
    else if w.dtlsState ≠ .STATE_OPEN then .ok w
    else if ¬isRtpPacket data then .ok w
    else .ok (w.signal (.readPacket data true))
  | .STATE_OFFERED | .STATE_ACCEPTED | .STATE_CLOSED => .ok w

/-- `Reset`.  The lower channel's own `Reset` makes it neither readable nor
writable. -/
def reset (setup : Setup) (w : Wrapper) : Except Part Wrapper :=
  match (w.lowerSetReadable false).lowerSetWritable false false with
  | .error part => .error part
  | .ok w =>
    match ((w.setWritable false).setReadable false).setupDtls setup with
    | .error part => .error part
    | .ok (false, w) => .ok { w with dtlsState := .STATE_CLOSED }
    | .ok (true, w) => .ok { w with dtlsState := .STATE_ACCEPTED }

/-- The bits of an event of the stack, its state and what a read returns. -/
structure DtlsEvent where
  seOpen : Bool
  seRead : Bool
  seClose : Bool
  isOpen : Bool
  read : Option (List UInt8)
  deriving DecidableEq, Repr

def openStream (w : Wrapper) : Wrapper :=
  { w with dtls := w.dtls.map fun stream => { stream with opened := true } }

def onDtlsOpen (event : DtlsEvent) (w : Wrapper) : Except Part Wrapper :=
  if ¬event.seOpen then .ok w
  else
    match w.useDtls with
    | .error part => .error part
    | .ok _ =>
      if event.isOpen then
        .ok ((setReadable true
          { w.openStream with dtlsState := .STATE_OPEN }).setWritable true)
      else .ok w

def onDtlsRead (event : DtlsEvent) (w : Wrapper) : Except Part Wrapper :=
  if ¬event.seRead then .ok w
  else
    match w.useDtls with
    | .error part => .error part
    | .ok _ =>
      match event.read with
      | some data => .ok (w.signal (.readPacket data false))
      | none => .ok w

def onDtlsClose (event : DtlsEvent) (w : Wrapper) : Wrapper :=
  if ¬event.seClose then w
  else
    { (w.setReadable false).setWritable false with
      dtlsState := .STATE_CLOSED }

def onDtlsEvent (event : DtlsEvent) (w : Wrapper) : Except Part Wrapper :=
  match w.onDtlsOpen event with
  | .error part => .error part
  | .ok w =>
    match w.onDtlsRead event with
    | .error part => .error part
    | .ok w => .ok (w.onDtlsClose event)

end Wrapper

/-- A call of a method, or an event of the lower channel or of the stack, with
the answers of the stack. -/
inductive Event where
  | setLocalIdentity (identity : Option ℕ)
  | setRemoteFingerprint (digestAlg digest : List UInt8) (setup : Setup)
  | setSslRole (role : SSLRole)
  | setSrtpCiphers (ciphers : List (List UInt8)) (hasCipher : Bool)
  | getSrtpCipher (hasCipher : Bool)
  | connect
  | reset (setup : Setup)
  | sendPacket (data : List UInt8) (bypass : Bool)
  | lowerSetReadable (readable : Bool)
  | lowerSetWritable (writable started : Bool)
  | lowerReadyToSend
  | onReadPacket (data : List UInt8)
  | onDtlsEvent (event : Wrapper.DtlsEvent)

/-- The result of an event and the wrapper after it. -/
def Event.apply (w : Wrapper) : Event → Except Part (Bool × Wrapper)
  | .setLocalIdentity identity => .ok (w.setLocalIdentity identity)
  | .setRemoteFingerprint digestAlg digest setup =>
    w.setRemoteFingerprint digestAlg digest setup
  | .setSslRole role => .ok (w.setSslRole role)
  | .setSrtpCiphers ciphers hasCipher => w.setSrtpCiphers ciphers hasCipher
  | .getSrtpCipher hasCipher => w.getSrtpCipher hasCipher
  | .connect => .ok (true, w)
  | .reset setup => (w.reset setup).map fun w => (true, w)
  | .sendPacket data bypass =>
    (w.sendPacket data bypass).map fun w => (true, w)
  | .lowerSetReadable readable => .ok (true, w.lowerSetReadable readable)
  | .lowerSetWritable writable started =>
    (w.lowerSetWritable writable started).map fun w => (true, w)
  | .lowerReadyToSend => .ok (true, w.onReadyToSend)
  | .onReadPacket data => (w.onReadPacket data).map fun w => (true, w)
  | .onDtlsEvent event => (w.onDtlsEvent event).map fun w => (true, w)

/-- Only a stream that exists signals events, and it yields data only once it
is open. -/
def Event.Enabled (w : Wrapper) : Event → Prop
  | .onDtlsEvent event =>
    w.dtls.isSome ∧ (event.seRead → event.read.isSome →
      w.dtls.any (·.opened) ∨ event.seOpen ∧ event.isOpen)
  | _ => True

instance (w : Wrapper) (e : Event) : Decidable (e.Enabled w) :=
  match e with
  | .onDtlsEvent _ => inferInstanceAs (Decidable (_ ∧ (_ → _ → _ ∨ _ ∧ _)))
  | .setLocalIdentity _ | .setRemoteFingerprint _ _ _ | .setSslRole _
  | .setSrtpCiphers _ _ | .getSrtpCipher _ | .connect | .reset _
  | .sendPacket _ _ | .lowerSetReadable _ | .lowerSetWritable _ _
  | .lowerReadyToSend | .onReadPacket _ => inferInstanceAs (Decidable True)

/-- A wrapper, and whether DTLS was offered: an identity was set and the peer
has not been said not to support DTLS. -/
structure Session where
  wrapper : Wrapper
  offered : Bool

/-- Whether DTLS is offered after an event that returned `result`. -/
def Event.offers (offered result : Bool) : Event → Bool
  | .setLocalIdentity (some _) => offered || result
  | .setRemoteFingerprint [] _ _ => offered && !result
  | _ => offered

/-- The outputs of a session are those of its last event. -/
def Session.cleared (s : Session) : Wrapper := { s.wrapper with outputs := [] }

/-- A session after an event.  After the use of a missing part there is
none. -/
def Session.step (s : Session) (e : Event) : Option Session :=
  if ¬e.Enabled s.wrapper then none
  else
    match e.apply s.cleared with
    | .error _ => none
    | .ok (result, w) => some ⟨w, e.offers s.offered result⟩

def Session.Initial (s : Session) : Prop := s = ⟨.new, false⟩

end WebrtcWinXp.Dtls
