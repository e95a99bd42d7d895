import WebrtcWinXp.Support.Transition
import Mathlib.Data.List.Basic

/-!
# ICE roles

Two agents check their connectivity with binding requests that carry the role
and the tiebreaker of the sender.  An agent that receives a request in its own
role either changes its role or answers with a 487 response, and an agent
whose request is answered so changes its role.
-/

namespace WebrtcWinXp.Ice

open Support

/-- The roles of `IceRole` that an agent can have. -/
inductive IceRole where
  | controlling
  | controlled
  deriving DecidableEq

def IceRole.reverse : IceRole → IceRole
  | controlling => controlled
  | controlled => controlling

/-- The attributes of a binding request that concern roles.  The username
holds the fragment of the sender. -/
structure IceMessage where
  transactionId : ℕ
  iceControlling : Option ℕ
  iceControlled : Option ℕ
  remoteUfrag : String
  deriving DecidableEq

structure Agent where
  iceRole : IceRole
  tiebreaker : ℕ
  usernameFragment : String
  /-- The requests in `requests_`, which wait for a response. -/
  requests : List IceMessage
  nextTransactionId : ℕ
  /-- How often the role has changed. -/
  changes : ℕ

def IceMessage.role (msg : IceMessage) : IceRole :=
  if msg.iceControlling.isSome then .controlling else .controlled

namespace Agent

variable (a : Agent)

/-- `ConnectionRequest::Prepare`. -/
def prepare : IceMessage where
  transactionId := a.nextTransactionId
  iceControlling :=
    if a.iceRole = .controlling then some a.tiebreaker else none
  iceControlled :=
    if a.iceRole = .controlling then none else some a.tiebreaker
  remoteUfrag := a.usernameFragment

/-- `MaybeIceRoleConflict`: whether the conflict is signalled, and whether the
request is accepted; a 487 response is sent when it is not. -/
def maybeIceRoleConflict (msg : IceMessage) : Bool × Bool :=
  if msg.iceControlling = some a.tiebreaker ∧
      a.usernameFragment = msg.remoteUfrag then (false, true)
  else
    let (remoteIceRole, remoteTiebreaker) :=
      match msg.iceControlled, msg.iceControlling with
      | some tiebreaker, _ => (some IceRole.controlled, tiebreaker)
      | none, some tiebreaker => (some IceRole.controlling, tiebreaker)
      | none, none => (none, 0)
    match a.iceRole with
    | .controlling =>
      if remoteIceRole = some .controlling then
        if remoteTiebreaker ≥ a.tiebreaker then (true, true)
        else (false, false)
      else (false, true)
    | .controlled =>
      if remoteIceRole = some .controlled then
        if remoteTiebreaker < a.tiebreaker then (true, true)
        else (false, false)
      else (false, true)

def onRoleConflict : Agent :=
  { a with
    iceRole := a.iceRole.reverse
    changes := a.changes + 1 }

def ping : Agent :=
  { a with
    requests := a.prepare :: a.requests
    nextTransactionId := a.nextTransactionId + 1 }

def findRequest (transactionId : ℕ) : Option IceMessage :=
  a.requests.find? fun r => r.transactionId = transactionId

def removeRequest (transactionId : ℕ) : Agent :=
  { a with
    requests := a.requests.filter fun r => r.transactionId ≠ transactionId }

end Agent

inductive Side where
  | left
  | right
  deriving DecidableEq

def Side.other : Side → Side
  | left => right
  | right => left

/-- A request with the number of role changes of its sender before it was sent,
and responses with the transaction that they answer. -/
inductive Message where
  | bindingRequest (msg : IceMessage) (changes : ℕ)
  | bindingResponse (transactionId : ℕ)
  | roleConflict (transactionId : ℕ)

structure Exchange where
  agents : Side → Agent
  /-- The messages on their way, each with its receiver. -/
  inFlight : List (Side × Message)
  /-- The senders of the requests that were processed, with the number of role
  changes before they were sent. -/
  processed : List (Side × ℕ)
  /-- How often a 487 response changed the role of an agent which did not have
  the role of the request any more. -/
  staleChanges : ℕ

inductive Event where
  | ping (side : Side)
  | requestTimeout (side : Side) (transactionId : ℕ)
  | deliver (i : ℕ)
  | duplicate (i : ℕ)
  | lose (i : ℕ)

namespace Exchange

variable (s : Exchange)

def setAgent (side : Side) (a : Agent) : Exchange :=
  { s with
    agents := Function.update s.agents side a }

/-- `Connection::OnReadPacket` for a message to one side. -/
def onReadPacket (side : Side) : Message → Exchange
  | .bindingRequest msg changes =>
    let a := s.agents side
    let (signalled, accepted) := a.maybeIceRoleConflict msg
    let s := s.setAgent side (if signalled then a.onRoleConflict else a)
    { s with
      inFlight := s.inFlight ++
        [(side.other,
          if accepted then .bindingResponse msg.transactionId
          else .roleConflict msg.transactionId)]
      processed := (side.other, changes) :: s.processed }
  | .bindingResponse transactionId =>
    s.setAgent side ((s.agents side).removeRequest transactionId)
  | .roleConflict transactionId =>
    let a := s.agents side
    match a.findRequest transactionId with
    | none => s
    | some request =>
      let s := s.setAgent side
        (a.onRoleConflict.removeRequest transactionId)
      { s with
        staleChanges :=
          if request.role = a.iceRole then s.staleChanges
          else s.staleChanges + 1 }

def step : Event → Option Exchange
  | .ping side =>
    let a := s.agents side
    let s := s.setAgent side a.ping
    some
      { s with
        inFlight := s.inFlight ++
          [(side.other, .bindingRequest a.prepare a.changes)] }
  | .requestTimeout side transactionId =>
    some (s.setAgent side ((s.agents side).removeRequest transactionId))
  | .deliver i =>
    s.inFlight[i]?.map fun (side, message) =>
      onReadPacket
        { s with
          inFlight := s.inFlight.eraseIdx i } side message
  | .duplicate i =>
    s.inFlight[i]?.map fun m =>
      { s with
        inFlight := s.inFlight ++ [m] }
  | .lose i =>
    some
      { s with
        inFlight := s.inFlight.eraseIdx i }

/-- Two agents with different tiebreakers that have not sent anything. -/
structure Started : Prop where
  tiebreaker_ne : (s.agents .left).tiebreaker ≠ (s.agents .right).tiebreaker
  requests : ∀ side, (s.agents side).requests = []
  changes : ∀ side, (s.agents side).changes = 0
  inFlight : s.inFlight = []
  processed : s.processed = []
  staleChanges : s.staleChanges = 0

end Exchange

end WebrtcWinXp.Ice
