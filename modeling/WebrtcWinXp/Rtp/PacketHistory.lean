import Mathlib.Data.List.Nodup
import WebrtcWinXp.Support.Bytes
import WebrtcWinXp.Support.Ring

/-!
# The packet history

`RTPPacketHistory`: a ring of the last packets that were sent.  The parallel
vectors of the source are one list of slots.  A failed assertion is no result.
-/

namespace WebrtcWinXp.Rtp

open Support

inductive StorageType where
  | kDontStore
  | kDontRetransmit
  | kAllowRetransmission
  deriving DecidableEq

/-- The entries of the six vectors at one index; a new one is zero. -/
structure HistorySlot where
  packet : List UInt8 := []
  seqNum : UInt16 := 0
  length : ℕ := 0
  time : ℤ := 0
  sendTime : ℤ := 0
  type : StorageType := .kDontStore
  deriving DecidableEq

structure RTPPacketHistory where
  store : Bool := false
  prevIndex : ℕ := 0
  maxPacketLength : ℕ := 0
  slots : List HistorySlot := []
  deriving DecidableEq

/-- `resize` of a vector. -/
def resizeVector {α : Type*} (l : List α) (n : ℕ) (a : α) : List α :=
  l.take n ++ List.replicate (n - l.length) a

def packetSeqNum (packet : List UInt8) : UInt16 :=
  ((packet.getD 2 0).toUInt16 <<< 8) + (packet.getD 3 0).toUInt16

namespace RTPPacketHistory

/-! ## The functions -/

def allocate (h : RTPPacketHistory) (numberToStore : UInt16) :
    Option RTPPacketHistory :=
  if numberToStore = 0 ∨ h.store then none
  else some
    { h with
      store := true
      slots := resizeVector h.slots numberToStore.toNat {} }

def free (h : RTPPacketHistory) : RTPPacketHistory :=
  if h.store then {} else h

def setStorePacketsStatus (h : RTPPacketHistory) (enable : Bool)
    (numberToStore : UInt16) : Option RTPPacketHistory :=
  if enable then (if h.store then h.free else h).allocate numberToStore
  else some h.free

def verifyAndAllocatePacketLength (h : RTPPacketHistory) (packetLength : ℕ) :
    Option RTPPacketHistory :=
  if packetLength = 0 then none
  else if ¬h.store then some h
  else if packetLength ≤ h.maxPacketLength then some h
  else some
    { h with
      slots := h.slots.map fun slot =>
        { slot with packet := resizeVector slot.packet packetLength 0 }
      maxPacketLength := packetLength }

/-- The stores of `PutRTPPacket` at the index and its advance. -/
def storePacket (h : RTPPacketHistory) (packet : List UInt8)
    (captureTimeMs : ℤ) (type : StorageType) (now : ℤ) : RTPPacketHistory :=
  { h with
    slots := h.slots.set h.prevIndex
      { packet := overwrite (h.slots.getD h.prevIndex {}).packet 0 packet
        seqNum := packetSeqNum packet
        length := packet.length
        time := if captureTimeMs > 0 then captureTimeMs else now
        sendTime := 0
        type := type }
    prevIndex := if h.prevIndex + 1 ≥ h.slots.length then 0
      else h.prevIndex + 1 }

def putRTPPacket (h : RTPPacketHistory) (packet : List UInt8)
    (maxPacketLength : ℕ) (captureTimeMs : ℤ) (type : StorageType)
    (now : ℤ) : Option (RTPPacketHistory × ℤ) :=
  if type = .kDontStore then some (h, 0)
  else if ¬h.store then some (h, 0)
  else if packet.length ≤ 3 then none
  else (h.verifyAndAllocatePacketLength maxPacketLength).map fun h =>
    if packet.length > h.maxPacketLength then (h, -1)
    else (h.storePacket packet captureTimeMs type now, 0)

def seqNumAt (h : RTPPacketHistory) (index : ℕ) : UInt16 :=
  (h.slots.getD index {}).seqNum

/-- The index that `FindSeqNum` looks at first: the one that lies as far
behind the last written one as the sequence numbers differ, if there is one,
else the last written one. -/
def guessIndex (h : RTPPacketHistory) (sequenceNumber : UInt16) : ℕ :=
  let index :=
    if h.prevIndex > 0 then h.prevIndex - 1 else h.slots.length - 1
  let tempSequenceNumber := h.seqNumAt index
  let idx : ℤ := ((h.prevIndex : ℤ) - 1) -
    ((tempSequenceNumber.toNat : ℤ) - sequenceNumber.toNat)
  if 0 ≤ idx ∧ idx < h.slots.length then idx.toNat else index

/-- The index of a slot with the sequence number; all are searched in turn
when the guess is wrong. -/
def findSeqNum (h : RTPPacketHistory) (sequenceNumber : UInt16) : Option ℕ :=
  if h.seqNumAt (h.guessIndex sequenceNumber) = sequenceNumber then
    some (h.guessIndex sequenceNumber)
  else h.slots.findIdx? fun slot => slot.seqNum = sequenceNumber

def hasRTPPacket (h : RTPPacketHistory) (sequenceNumber : UInt16) : Bool :=
  if ¬h.store then false
  else match h.findSeqNum sequenceNumber with
    | none => false
    | some index =>
      let length := (h.slots.getD index {}).length
      !(length = 0 ∨ length > h.maxPacketLength)

/-- The bytes copied to the caller's buffer, their number and the time. -/
def getPacket (h : RTPPacketHistory) (index : ℕ) : List UInt8 × ℕ × ℤ :=
  let slot := h.slots.getD index {}
  (slot.packet.take slot.length, slot.length, slot.time)

/-- The clock is read twice.  The caller's buffer has room for the longest
packet. -/
def getPacketAndSetSendTime (h : RTPPacketHistory) (sequenceNumber : UInt16)
    (minElapsedTimeMs : ℕ) (retransmit : Bool) (now sendTime : ℤ) :
    RTPPacketHistory × Option (List UInt8 × ℕ × ℤ) :=
  if ¬h.store then (h, none)
  else match h.findSeqNum sequenceNumber with
    | none => (h, none)
    | some index =>
      let slot := h.slots.getD index {}
      if slot.length = 0 then (h, none)
      else if minElapsedTimeMs > 0 ∧
          now - slot.sendTime < minElapsedTimeMs then (h, none)
      else if retransmit ∧ slot.type = .kDontRetransmit then (h, none)
      else
        let h :=
          { h with
            slots := h.slots.set index { slot with sendTime := sendTime } }
        (h, some (h.getPacket index))

inductive Call where
  | setStorePacketsStatus (enable : Bool) (numberToStore : UInt16)
  | putRTPPacket (packet : List UInt8) (maxPacketLength : ℕ)
      (captureTimeMs : ℤ) (type : StorageType) (now : ℤ)
  | getPacketAndSetSendTime (sequenceNumber : UInt16) (minElapsedTimeMs : ℕ)
      (retransmit : Bool) (now sendTime : ℤ)

def call (h : RTPPacketHistory) : Call → Option RTPPacketHistory
  | .setStorePacketsStatus enable numberToStore =>
    h.setStorePacketsStatus enable numberToStore
  | .putRTPPacket packet maxPacketLength captureTimeMs type now =>
    (h.putRTPPacket packet maxPacketLength captureTimeMs type now).map (·.1)
  | .getPacketAndSetSendTime sequenceNumber minElapsedTimeMs retransmit now
      sendTime =>
      some (h.getPacketAndSetSendTime sequenceNumber minElapsedTimeMs
        retransmit now sendTime).1

/-- A new history after the calls, if no assertion fails. -/
def run (calls : List Call) : Option RTPPacketHistory :=
  calls.foldlM call {}

end RTPPacketHistory

/-- A packet that was stored, with its time. -/
structure StoredPacket where
  packet : List UInt8
  time : ℤ
  deriving DecidableEq

namespace StoredPacket

def seqNum (p : StoredPacket) : UInt16 := packetSeqNum p.packet

end StoredPacket

/-- The packets stored since the history was enabled. -/
structure HistoryLog where
  numberToStore : UInt16
  longest : ℕ := 0
  packets : List StoredPacket := []

namespace HistoryLog

open RTPPacketHistory

def recent (log : HistoryLog) : List StoredPacket :=
  lastEntries log.numberToStore.toNat log.packets

/-- Packets are stored up to the longest length that was announced. -/
def put (log : HistoryLog) (packet : List UInt8) (maxPacketLength : ℕ)
    (captureTimeMs now : ℤ) : HistoryLog :=
  let longest := max log.longest maxPacketLength
  { numberToStore := log.numberToStore
    longest := longest
    packets := if packet.length > longest then log.packets
      else log.packets ++
        [⟨packet, if captureTimeMs > 0 then captureTimeMs else now⟩] }

/-- What a call does to the log; there is none while the history is off. -/
def call : Option HistoryLog → Call → Option HistoryLog
  | _, .setStorePacketsStatus true numberToStore =>
    some { numberToStore := numberToStore }
  | _, .setStorePacketsStatus false _ => none
  | log, .putRTPPacket packet maxPacketLength captureTimeMs type now =>
    if type = .kDontStore then log
    else log.map fun log =>
      log.put packet maxPacketLength captureTimeMs now
  | log, .getPacketAndSetSendTime .. => log

def ofCalls (calls : List Call) : Option HistoryLog := calls.foldl call none

end HistoryLog

/-- The packets stored since the calls last enabled the history that are still
among the last ones; none while it is off. -/
def recentPackets (calls : List RTPPacketHistory.Call) : List StoredPacket :=
  match HistoryLog.ofCalls calls with
  | none => []
  | some log => log.recent

end WebrtcWinXp.Rtp
