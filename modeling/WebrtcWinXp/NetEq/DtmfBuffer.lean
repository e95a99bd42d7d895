import WebrtcWinXp.Support.Loop
import WebrtcWinXp.Support.Sorted

/-!
# `DtmfBuffer`

Insertion of DTMF events, and the walk over the buffer that looks for the event
to play, with `LEGACY_BITEXACT` as the source defines it.
-/

namespace WebrtcWinXp.NetEq

open Support

structure DtmfEvent where
  timestamp : UInt32 := 0
  eventNo : ℤ := 0
  volume : ℤ := 0
  duration : ℤ := 0
  endBit : Bool := false
  deriving DecidableEq

inductive DtmfReturnCodes where
  | kOK
  | kInvalidPointer
  | kPayloadTooShort
  | kInvalidEventParameters
  | kInvalidSampleRate
  deriving DecidableEq, Repr

structure DtmfBuffer where
  maxExtrapolationSamples : ℤ := 0
  frameLenSamples : ℤ := 0
  buffer : List DtmfEvent := []
  deriving DecidableEq

def sameEvent (a b : DtmfEvent) : Bool :=
  a.eventNo = b.eventNo && a.timestamp = b.timestamp

def compareEvents (a b : DtmfEvent) : Bool :=
  if a.timestamp = b.timestamp then decide (a.eventNo < b.eventNo)
  else decide (b.timestamp - a.timestamp < 0xFFFFFFFF / 2)

/-- What `MergeEvents` makes of an event that is the same. -/
def mergeEvents (it event : DtmfEvent) : DtmfEvent :=
  { it with
    duration := if it.endBit then it.duration
      else max event.duration it.duration
    endBit := it.endBit || event.endBit }

/-- The loop that looks for an event to merge with; nothing without one. -/
def mergeInto (event : DtmfEvent) : List DtmfEvent → Option (List DtmfEvent)
  | [] => none
  | it :: rest =>
    if sameEvent it event then some (mergeEvents it event :: rest)
    else (mergeInto event rest).map (it :: ·)

def DtmfEvent.valid (event : DtmfEvent) : Bool :=
  !(event.eventNo < 0 || event.eventNo > 15 || event.volume < 0 ||
    event.volume > 36 || event.duration ≤ 0 || event.duration > 65535)

/-- What becomes of an event that `GetEvent` looks at: it is returned, and kept
or not, or it is erased, or skipped. -/
inductive Visit where
  | returns (keep : Bool)
  | erases
  | skips
  deriving DecidableEq

/-- The walk over the events: those that were skipped, those from the iterator
on, and the event that is returned. -/
structure Walk where
  passed : List DtmfEvent := []
  rest : List DtmfEvent
  found : Option DtmfEvent := none

namespace DtmfBuffer

variable (b : DtmfBuffer)

def setSampleRate (fsHz : ℤ) : DtmfReturnCodes × DtmfBuffer :=
  if fsHz ≠ 8000 ∧ fsHz ≠ 16000 ∧ fsHz ≠ 32000 ∧ fsHz ≠ 48000 then
    (.kInvalidSampleRate, b)
  else
    (.kOK, { b with
      maxExtrapolationSamples := 7 * fsHz / 100
      frameLenSamples := fsHz / 100 })

def new (fsHz : ℤ) : DtmfBuffer := (setSampleRate {} fsHz).2

def insertEvent (event : DtmfEvent) : DtmfReturnCodes × DtmfBuffer :=
  if !event.valid then (.kInvalidEventParameters, b)
  else
    match mergeInto event b.buffer with
    | some buffer =>
      (.kOK, { b with
        buffer := buffer })
    | none =>
      (.kOK, { b with
        buffer := (b.buffer ++ [event]).mergeSort
          fun x y => !compareEvents y x })

/-- Where an event without the end bit is extrapolated to. -/
def extrapolatedEnd (it : DtmfEvent) : UInt32 :=
  it.timestamp + UInt32.ofInt it.duration +
    UInt32.ofInt b.maxExtrapolationSamples

/-- `event_end`, an estimate of where an event ends. -/
def eventEnd (it : DtmfEvent) (next : Option DtmfEvent) : UInt32 :=
  if it.endBit then it.timestamp + UInt32.ofInt it.duration
  else
    match next with
    | none => b.extrapolatedEnd it
    | some next =>
      if next.timestamp < b.extrapolatedEnd it then next.timestamp
      else b.extrapolatedEnd it

/-- One round of `GetEvent`. -/
def visit (currentTimestamp : UInt32) (it : DtmfEvent)
    (next : Option DtmfEvent) : Visit :=
  let eventEnd := b.eventEnd it next
  let nextAvailable := !it.endBit && next.isSome
  if it.timestamp ≤ currentTimestamp ∧ currentTimestamp ≤ eventEnd then
    .returns !(it.endBit && decide
      (currentTimestamp + UInt32.ofInt b.frameLenSamples ≥ eventEnd))
  else if currentTimestamp > eventEnd then
    if !nextAvailable then .returns false
    else .erases
  else .skips

/-- The state after one round; nothing at the end of the walk. -/
def walk (currentTimestamp : UInt32) (s : Walk) : Option Walk :=
  match s.found, s.rest with
  | none, it :: rest =>
    match b.visit currentTimestamp it rest.head? with
    | .returns keep =>
      some { s with
        rest := if keep then it :: rest else rest
        found := some it }
    | .erases =>
      some { s with
        rest := rest }
    | .skips =>
      some { s with
        passed := s.passed ++ [it]
        rest := rest }
  | _, _ => none

/-- Every round erases an event, passes one or is the last. -/
def walkMeasure (s : Walk) : ℕ :=
  2 * s.rest.length + if s.found.isNone then 1 else 0

def getEvent (currentTimestamp : UInt32) : Option DtmfEvent × DtmfBuffer :=
  let s := finish (b.walk currentTimestamp) walkMeasure
    { rest := b.buffer }
  (s.found, { b with
    buffer := s.passed ++ s.rest })

end DtmfBuffer

inductive DtmfCall where
  | insertEvent (event : DtmfEvent)
  | getEvent (currentTimestamp : UInt32)

inductive DtmfResult where
  | inserted (code : DtmfReturnCodes)
  | got (event : Option DtmfEvent)
  deriving DecidableEq

def DtmfBuffer.call (b : DtmfBuffer) : DtmfCall → DtmfResult × DtmfBuffer
  | .insertEvent event =>
    (.inserted (b.insertEvent event).1, (b.insertEvent event).2)
  | .getEvent currentTimestamp =>
    (.got (b.getEvent currentTimestamp).1, (b.getEvent currentTimestamp).2)

def DtmfBuffer.results (b : DtmfBuffer) : List DtmfCall → List DtmfResult
  | [] => []
  | c :: calls => (b.call c).1 :: (b.call c).2.results calls

end WebrtcWinXp.NetEq
