import WebrtcWinXp.Support.PriorityQueue

/-!
# The message queue

Messages wait in three places: a peeked one in a slot, posted ones in a list,
and delayed ones in a priority queue until their time stamps are reached.
Clocks and time stamps are milliseconds in 32 bits.
-/

namespace WebrtcWinXp.Messages

open Support

def MQID_ANY : BitVec 32 := -1
def MQID_DISPOSE : BitVec 32 := -2

/-- `HALF` in the time utilities. -/
def HALF : ℕ := 0x80000000

/-- `TimeIsLater` with a signed difference. -/
def timeIsLater (earlier later : BitVec 32) : Bool :=
  0 < (later - earlier).toInt ∧ (later - earlier).toNat < HALF

/-- `TimeAfter` for a clock reading. -/
def timeAfter (time : BitVec 32) (elapsed : ℕ) : BitVec 32 :=
  time + BitVec.ofNat 32 elapsed

variable {δ : Type*}

/-- A message with its handler, if it is not null, and its data. -/
structure Message (δ : Type*) where
  phandler : Option ℕ
  messageId : BitVec 32
  pdata : δ

/-- `Match` with a handler that may be null. -/
def Message.matchesFilter (m : Message δ) (handler : Option ℕ)
    (id : BitVec 32) : Bool :=
  (handler = none ∨ handler = m.phandler) ∧ (id = MQID_ANY ∨ id = m.messageId)

structure DelayedMessage (δ : Type*) where
  msTrigger : BitVec 32
  num : BitVec 32
  msg : Message δ

/-- `operator<` of delayed messages. -/
def DelayedMessage.lt (d e : DelayedMessage δ) : Bool :=
  e.msTrigger < d.msTrigger ∨ (e.msTrigger = d.msTrigger ∧ e.num < d.num)

structure MessageQueue (δ : Type*) where
  /-- The peeked message while `fPeekKeep_` is set. -/
  msgPeek : Option (Message δ)
  msgq : List (Message δ)
  dmsgq : List (DelayedMessage δ)
  dmsgqNextNum : BitVec 32

namespace MessageQueue

def new : MessageQueue δ where
  msgPeek := none
  msgq := []
  dmsgq := []
  dmsgqNextNum := 0

variable (q : MessageQueue δ)

def post (phandler : Option ℕ) (id : BitVec 32) (pdata : δ) : MessageQueue δ :=
  { q with
    msgq := q.msgq ++ [⟨phandler, id, pdata⟩] }

def doDelayPost (tstamp : BitVec 32) (phandler : Option ℕ) (id : BitVec 32)
    (pdata : δ) : MessageQueue δ :=
  { q with
    dmsgq := q.dmsgq ++ [⟨tstamp, q.dmsgqNextNum, ⟨phandler, id, pdata⟩⟩]
    dmsgqNextNum := q.dmsgqNextNum + 1 }

/-- `Clear`, with the messages that are removed. -/
def clear (phandler : Option ℕ) (id : BitVec 32) :
    MessageQueue δ × List (Message δ) :=
  ({ q with
     msgPeek := q.msgPeek.filter fun m => !m.matchesFilter phandler id
     msgq := q.msgq.filter fun m => !m.matchesFilter phandler id
     dmsgq := q.dmsgq.filter fun d => !d.msg.matchesFilter phandler id },
    (q.msgPeek.filter fun m => m.matchesFilter phandler id).toList ++
      (q.msgq.filter fun m => m.matchesFilter phandler id) ++
      (q.dmsgq.filter fun d => d.msg.matchesFilter phandler id).map
        DelayedMessage.msg)

/-- The delayed messages that have been triggered, and those that have not. -/
def triggered (msCurrent : BitVec 32) :
    List (DelayedMessage δ) × List (DelayedMessage δ) :=
  PriorityQueue.popReady DelayedMessage.lt
    (fun d => !timeIsLater msCurrent d.msTrigger) q.dmsgq.length q.dmsgq

/-- The first pass of `Get` over the delayed messages. -/
def collect (msCurrent : BitVec 32) : MessageQueue δ :=
  { q with
    msgq := q.msgq ++ (q.triggered msCurrent).1.map DelayedMessage.msg
    dmsgq := (q.triggered msCurrent).2 }

/-- Pull a message off the queue, if one is available. -/
def pull : Option (Message δ × MessageQueue δ) :=
  match q.msgq with
  | [] => none
  | m :: rest =>
    some (m,
      { q with
        msgq := rest })

end MessageQueue

end WebrtcWinXp.Messages
