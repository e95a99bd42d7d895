import WebrtcWinXp.Support.OrderedMap
import WebrtcWinXp.Support.Transition

/-!
# The channels of a transport

`Transport` of `transport.cc`.  The worker thread creates, destroys and resets
the channels and takes their events; the signalling thread handles the
messages that the worker posts, in the order of its queue.  Each step of a run
is one call or event on the worker thread, or one message on the signalling
thread.
-/

namespace WebrtcWinXp.P2p

open Support

inductive TransportState where
  | TRANSPORT_STATE_NONE
  | TRANSPORT_STATE_SOME
  | TRANSPORT_STATE_ALL
  deriving DecidableEq, Repr

inductive IceRole where
  | ICEROLE_CONTROLLING
  | ICEROLE_CONTROLLED
  | ICEROLE_UNKNOWN
  deriving DecidableEq, Repr

/-- The messages to the signalling thread. -/
inductive Message where
  | MSG_CONNECTING
  | MSG_READSTATE
  | MSG_WRITESTATE
  | MSG_REQUESTSIGNALING (component : ℤ)
  | MSG_CANDIDATEREADY
  | MSG_ROUTECHANGE
  | MSG_CANDIDATEALLOCATIONCOMPLETE
  | MSG_ROLECONFLICT
  | MSG_COMPLETED
  | MSG_FAILED
  deriving DecidableEq, Repr

/-- The events of a channel that tell about the allocation of candidates. -/
inductive AllocationEvent where
  | requestSignaling
  | candidatesAllocationDone
  deriving DecidableEq, Repr

/-- A transport channel, with the allocation events that it has signalled. -/
structure Channel where
  readable : Bool
  writable : Bool
  iceRole : IceRole
  connectionCount : ℕ
  history : List AllocationEvent
  deriving DecidableEq, Repr

structure ChannelMapEntry where
  impl : Channel
  candidatesAllocated : Bool
  ref : ℕ
  deriving DecidableEq, Repr

abbrev ChannelMap := OrderedMap ℤ ChannelMapEntry

/-- A candidate, which the transport only passes on. -/
structure Candidate where
  id : ℕ
  deriving DecidableEq, Repr

/-- A candidate that was signalled, and whether connecting was requested at
that moment. -/
structure SignalledCandidate where
  candidate : Candidate
  connectRequested : Bool
  deriving DecidableEq, Repr

/-- `Transport` and its messages.  The candidates that were reported and what
became of them are kept, and the channels for which `MSG_COMPLETED` was
posted. -/
structure Transport where
  channels : ChannelMap
  readable : TransportState
  writable : TransportState
  wasWritable : Bool
  connectRequested : Bool
  iceRole : IceRole
  readyCandidates : List Candidate
  queue : List Message
  reported : List Candidate
  signalled : List SignalledCandidate
  cleared : List Candidate
  completions : List (List (ℤ × ChannelMapEntry))

namespace Transport

def new : Transport :=
  { channels := .empty
    readable := .TRANSPORT_STATE_NONE
    writable := .TRANSPORT_STATE_NONE
    wasWritable := false
    connectRequested := false
    iceRole := .ICEROLE_UNKNOWN
    readyCandidates := []
    queue := []
    reported := []
    signalled := []
    cleared := []
    completions := [] }

/-- `signaling_thread()->Post`. -/
def post (message : Message) (t : Transport) : Transport :=
  { t with queue := t.queue ++ [message] }

def modifyChannel (component : ℤ) (f : ChannelMapEntry → ChannelMapEntry)
    (t : Transport) : Transport :=
  { t with channels := t.channels.modify component f }

def modifyImpl (component : ℤ) (f : Channel → Channel) (t : Transport) :
    Transport :=
  t.modifyChannel component fun entry => { entry with impl := f entry.impl }

/-! ### Completion -/

/-- The check of `MaybeCompleted_w` for one channel. -/
def isCompleted (entry : ChannelMapEntry) : Bool :=
  entry.impl.writable && entry.impl.connectionCount == 1 &&
    entry.impl.iceRole == .ICEROLE_CONTROLLING && entry.candidatesAllocated

def maybeCompleted (t : Transport) : Transport :=
  if t.channels.entries.all fun e => isCompleted e.2 then
    { t.post .MSG_COMPLETED with
      completions := t.completions ++ [t.channels.entries] }
  else t

def onChannelReadableState (t : Transport) : Transport :=
  t.post .MSG_READSTATE

def onChannelWritableState (t : Transport) : Transport :=
  maybeCompleted (t.post .MSG_WRITESTATE)

/-- `TransportChannel::set_readable`, which signals a change. -/
def setChannelReadable (component : ℤ) (readable : Bool) (t : Transport) :
    Transport :=
  match t.channels.find component with
  | none => t
  | some entry =>
    if entry.impl.readable = readable then t
    else
      onChannelReadableState (t.modifyImpl component fun impl =>
        { impl with readable := readable })

/-- `TransportChannel::set_writable`, which signals a change. -/
def setChannelWritable (component : ℤ) (writable : Bool) (t : Transport) :
    Transport :=
  match t.channels.find component with
  | none => t
  | some entry =>
    if entry.impl.writable = writable then t
    else
      onChannelWritableState (t.modifyImpl component fun impl =>
        { impl with writable := writable })

/-- The channel's own part of an allocation event. -/
def note (event : AllocationEvent) (component : ℤ) (t : Transport) :
    Transport :=
  t.modifyImpl component fun impl =>
    { impl with history := impl.history ++ [event] }

def onChannelRequestSignaling (component : ℤ) (t : Transport) : Transport :=
  (t.note .requestSignaling component).post (.MSG_REQUESTSIGNALING component)

def onChannelCandidateReady (candidate : Candidate) (t : Transport) :
    Transport :=
  let t : Transport := { t with
    readyCandidates := t.readyCandidates ++ [candidate]
    reported := t.reported ++ [candidate] }
  if t.connectRequested then t.post .MSG_CANDIDATEREADY else t

def onChannelCandidatesAllocationDone (component : ℤ) (t : Transport) :
    Transport :=
  let t := (t.note .candidatesAllocationDone component).modifyChannel component
    fun entry => { entry with candidatesAllocated := true }
  if t.channels.entries.all fun e => e.2.candidatesAllocated then
    maybeCompleted (t.post .MSG_CANDIDATEALLOCATIONCOMPLETE)
  else t

def onChannelConnectionRemoved (component : ℤ) (t : Transport) : Transport :=
  let t := t.maybeCompleted
  match t.channels.find component with
  | none => t
  | some entry =>
    if entry.impl.iceRole ≠ .ICEROLE_CONTROLLING then t
    else if ¬entry.candidatesAllocated then t
    else if entry.impl.connectionCount = 0 then t.post .MSG_FAILED
    else t

/-- `CreateChannel_w`. -/
def createChannel (component : ℤ) (t : Transport) : Transport :=
  match t.channels.find component with
  | some _ =>
    t.modifyChannel component fun entry =>
      { entry with ref := entry.ref + 1 }
  | none =>
    let impl : Channel := ⟨false, false, t.iceRole, 0, []⟩
    let t : Transport := { t with
      channels := t.channels.insert component ⟨impl, false, 1⟩ }
    if t.connectRequested ∧ t.channels.entries.length = 1 then
      t.post .MSG_CONNECTING
    else t

def eraseChannel (component : ℤ) (t : Transport) : Transport :=
  { t with
    channels := t.channels.filterMapValues fun k entry =>
      if k = component then none else some entry }

/-- `DestroyChannel_w`. -/
def destroyChannel (component : ℤ) (t : Transport) : Transport :=
  match t.channels.find component with
  | none => t
  | some entry =>
    if entry.ref - 1 ≠ 0 then
      t.modifyChannel component fun entry =>
        { entry with ref := entry.ref - 1 }
    else
      let t := t.eraseChannel component
      onChannelWritableState
        (if t.connectRequested ∧ t.channels.entries = [] then
          t.post .MSG_CONNECTING
        else t)

/-- `ConnectChannels_w`.  What the channels signal in `Connect` are later
events. -/
def connectChannels (t : Transport) : Transport :=
  if t.connectRequested ∨ t.channels.entries = [] then t
  else
    let t : Transport := { t with connectRequested := true }
    (t.post .MSG_CANDIDATEREADY).post .MSG_CONNECTING

/-- `TransportChannelImpl::Reset`. -/
def resetChannel (component : ℤ) (t : Transport) : Transport :=
  ((t.modifyImpl component fun impl =>
    { impl with connectionCount := 0 }).setChannelReadable component
      false).setChannelWritable component false

/-- `ResetChannels_w`. -/
def resetChannels (t : Transport) : Transport :=
  t.channels.entries.foldl (fun t e => t.resetChannel e.1)
    { t with
      connectRequested := false
      readyCandidates := []
      cleared := t.cleared ++ t.readyCandidates }

/-- `SetIceRole_w`. -/
def setIceRole (role : IceRole) (t : Transport) : Transport :=
  { t with
    iceRole := role
    channels := t.channels.mapValues fun _ entry =>
      { entry with impl := { entry.impl with iceRole := role } } }

/-- The loop of `GetTransportState_s`. -/
def stateOf (flags : List Bool) : TransportState :=
  if !flags.isEmpty && flags.all id then .TRANSPORT_STATE_ALL
  else if flags.any id then .TRANSPORT_STATE_SOME
  else .TRANSPORT_STATE_NONE

def readFlags (t : Transport) : List Bool :=
  t.channels.entries.map fun e => e.2.impl.readable

def writeFlags (t : Transport) : List Bool :=
  t.channels.entries.map fun e => e.2.impl.writable

/-- `GetTransportState_s`. -/
def getTransportState (read : Bool) (t : Transport) : TransportState :=
  stateOf (if read then t.readFlags else t.writeFlags)

def onChannelReadableState_s (t : Transport) : Transport :=
  { t with readable := t.getTransportState true }

def onChannelWritableState_s (t : Transport) : Transport :=
  let writable := t.getTransportState false
  if t.writable ≠ writable then
    { t with
      wasWritable := t.writable == .TRANSPORT_STATE_ALL
      writable := writable }
  else t

def onChannelRequestSignaling_s (component : ℤ) (t : Transport) : Transport :=
  t.modifyChannel component fun entry =>
    { entry with candidatesAllocated := false }

def onChannelCandidateReady_s (t : Transport) : Transport :=
  { t with
    readyCandidates := []
    signalled := t.signalled ++
      t.readyCandidates.map fun candidate => ⟨candidate, t.connectRequested⟩ }

/-- `OnMessage` on the signalling thread. -/
def onMessage (message : Message) (t : Transport) : Transport :=
  match message with
  | .MSG_READSTATE => t.onChannelReadableState_s
  | .MSG_WRITESTATE => t.onChannelWritableState_s
  | .MSG_REQUESTSIGNALING component => t.onChannelRequestSignaling_s component
  | .MSG_CANDIDATEREADY => t.onChannelCandidateReady_s
  | .MSG_CONNECTING | .MSG_ROUTECHANGE | .MSG_CANDIDATEALLOCATIONCOMPLETE
  | .MSG_ROLECONFLICT | .MSG_COMPLETED | .MSG_FAILED => t

end Transport

inductive Event where
  | createChannel (component : ℤ)
  | destroyChannel (component : ℤ)
  | connectChannels
  | resetChannels
  | setIceRole (role : IceRole)
  | channelReadable (component : ℤ) (readable : Bool)
  | channelWritable (component : ℤ) (writable : Bool)
  | requestSignaling (component : ℤ)
  | candidateReady (component : ℤ) (candidate : Candidate)
  | allocationDone (component : ℤ)
  | connectionAdded (component : ℤ)
  | connectionRemoved (component : ℤ)
  | routeChange (component : ℤ)
  | roleConflict (component : ℤ)
  | message
  deriving DecidableEq

def Event.source : Event → Option ℤ
  | .channelReadable component _ | .channelWritable component _
  | .requestSignaling component | .candidateReady component _
  | .allocationDone component | .connectionAdded component
  | .connectionRemoved component | .routeChange component
  | .roleConflict component => some component
  | .createChannel _ | .destroyChannel _ | .connectChannels | .resetChannels
  | .setIceRole _ | .message => none

def Event.apply (t : Transport) : Event → Transport
  | .createChannel component => t.createChannel component
  | .destroyChannel component => t.destroyChannel component
  | .connectChannels => t.connectChannels
  | .resetChannels => t.resetChannels
  | .setIceRole role => t.setIceRole role
  | .channelReadable component readable =>
    t.setChannelReadable component readable
  | .channelWritable component writable =>
    t.setChannelWritable component writable
  | .requestSignaling component => t.onChannelRequestSignaling component
  | .candidateReady _ candidate => t.onChannelCandidateReady candidate
  | .allocationDone component => t.onChannelCandidatesAllocationDone component
  | .connectionAdded component =>
    t.modifyImpl component fun impl =>
      { impl with connectionCount := impl.connectionCount + 1 }
  | .connectionRemoved component =>
    (t.modifyImpl component fun impl =>
      { impl with connectionCount := impl.connectionCount - 1
        }).onChannelConnectionRemoved component
  | .routeChange _ => t.post .MSG_ROUTECHANGE
  | .roleConflict _ => t.post .MSG_ROLECONFLICT
  | .message =>
    match t.queue with
    | [] => t
    | next :: queue => { t with queue := queue }.onMessage next

/-- An event comes from a channel of the transport, or there is a message. -/
def Event.Enabled (t : Transport) (e : Event) : Prop :=
  (∀ component, e.source = some component →
    (t.channels.find component).isSome) ∧
    (e = .message → t.queue ≠ [])

def Transport.Initial (t : Transport) : Prop := t = .new

instance (t : Transport) (e : Event) : Decidable (e.Enabled t) :=
  decidable_of_iff ((∀ component ∈ e.source.toList,
      (t.channels.find component).isSome) ∧
      (e = .message → t.queue ≠ [])) (by simp [Event.Enabled])

def Transport.step (t : Transport) (e : Event) : Option Transport :=
  if e.Enabled t then some (e.apply t) else none

end WebrtcWinXp.P2p
