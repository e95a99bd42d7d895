import WebrtcWinXp.Fec.Packet
import WebrtcWinXp.Support.Memory
import Mathlib.Data.List.DropRight

/-!
# `VCMSessionInfo`

The packets of a frame, and the buffer that their bytes are copied to.  The log
of the copies keeps the limits that were in force.
-/

namespace WebrtcWinXp.VideoCoding

open Support Fec

def kMaxPacketsInSession : ℕ := 800

def kBufferIncStepSizeBytes : ℕ := 30000

def kMaxJBFrameSizeBytes : ℕ := 4000000

def kH264StartCodeLengthBytes : ℕ := 4

def kH264NALHeaderLengthInBytes : ℕ := 1

def kLengthFieldLength : ℕ := 2

def latestSequenceNumber (sequenceNumber1 sequenceNumber2 : UInt16) : UInt16 :=
  if isNewerSequenceNumber sequenceNumber1 sequenceNumber2 then sequenceNumber1
  else sequenceNumber2

inductive FrameType where
  | kFrameEmpty
  | kAudioFrameSpeech
  | kAudioFrameCN
  | kVideoFrameKey
  | kVideoFrameDelta
deriving DecidableEq

/-- The codecs that a packet can name. -/
inductive VideoCodecType where
  | kVideoCodecVP8
  | kVideoCodecH264
  | kVideoCodecUnknown
deriving DecidableEq

inductive VCMDecodeErrorMode where
  | kNoErrors
  | kSelectiveErrors
  | kWithErrors
deriving DecidableEq

/-- A received packet.  `stapA` stands for a codec-specific header of H.264 with
its flag for STAP-A set. -/
structure VCMPacket where
  seqNum : UInt16
  payload : Buffer
  markerBit : Bool := false
  frameType : FrameType := .kVideoFrameDelta
  codec : VideoCodecType := .kVideoCodecUnknown
  isFirstPacket : Bool := false
  insertStartCode : Bool := false
  stapA : Bool := false

namespace VCMPacket

def sizeBytes (packet : VCMPacket) : ℕ := packet.payload.size

/-- The bytes of the start code that goes in front. -/
def startCodeLength (packet : VCMPacket) : ℕ :=
  if packet.insertStartCode then kH264StartCodeLengthBytes else 0

end VCMPacket

/-! ## The frame buffer -/

/-- A pointer into an allocated buffer.  Buffers are numbered from 1 on. -/
structure Pointer where
  block : ℕ
  offset : ℕ
deriving DecidableEq

/-- Bytes that were written, and the buffer at that time. -/
structure Write where
  ptr : Option Pointer
  length : ℕ
  block : ℕ
  size : ℕ
deriving DecidableEq

def Write.Inside (w : Write) : Prop :=
  w.length = 0 ∨
    ∃ offset, w.ptr = some ⟨w.block, offset⟩ ∧ offset + w.length ≤ w.size

/-- Bytes of a packet that were read, and its size. -/
structure Read where
  access : Access
  size : ℕ
deriving DecidableEq

def Read.Inside (r : Read) : Prop :=
  r.access.offset + r.access.length ≤ r.size

/-- The buffer of a frame, and the logs.  While `block` is 0 there is none. -/
structure FrameMemory where
  block : ℕ
  size : ℕ
  bytes : ℕ → UInt8
  writes : List Write
  reads : List Read

def advance (ptr : Option Pointer) (n : ℕ) : Option Pointer :=
  ptr.map fun p => ⟨p.block, p.offset + n⟩

namespace FrameMemory

variable (m : FrameMemory)

/-- `_buffer`. -/
def base : Option Pointer := if m.block = 0 then none else some ⟨m.block, 0⟩

/-- `memcpy` of bytes to a pointer. -/
def write (ptr : Option Pointer) (data : List UInt8) : FrameMemory :=
  { m with
    bytes :=
      match ptr with
      | some p =>
        if p.block = m.block then
          memcpy m.bytes p.offset (fun i => data.getD i 0) data.length
        else m.bytes
      | none => m.bytes
    writes := ⟨ptr, data.length, m.block, m.size⟩ :: m.writes }

/-- What `memmove` takes from a pointer. -/
def load (ptr : Option Pointer) (n : ℕ) : List UInt8 :=
  match ptr with
  | some p =>
    if p.block = m.block then slice m.bytes p.offset n
    else List.replicate n 0
  | none => List.replicate n 0

def readPacket (packet : VCMPacket) (a : Access) : FrameMemory :=
  { m with reads := ⟨a, packet.sizeBytes⟩ :: m.reads }

def startCode : List UInt8 := [0, 0, 0, 1]

/-- `Insert`, for the bytes of the packet at the access. -/
def insert (packet : VCMPacket) (a : Access) (ptr : Option Pointer) :
    FrameMemory :=
  let m := if packet.insertStartCode then m.write ptr startCode else m
  (m.readPacket packet a).write (advance ptr packet.startCodeLength)
    (packet.payload.read a)

end FrameMemory

/-- A packet in the list, with its place in the frame buffer. -/
structure SessionPacket where
  packet : VCMPacket
  dataPtr : Option Pointer
  sizeBytes : ℕ

def SessionPacket.seqNum (p : SessionPacket) : UInt16 := p.packet.seqNum

def bufferToUWord16 (payload : Buffer) (i : ℕ) : ℕ :=
  (payload.byte i).toNat * 2 ^ 8 + (payload.byte (i + 1)).toNat

/-- The units of a STAP-A from a position on, by the loop over the length
fields.  Every round advances. -/
def naluUnits (payload : Buffer) : ℕ → ℕ → List Access
  | 0, _ => []
  | fuel + 1, naluPtr =>
    if naluPtr < payload.size then
      let length := bufferToUWord16 payload naluPtr
      ⟨naluPtr + kLengthFieldLength, length⟩ ::
        naluUnits payload fuel (naluPtr + (kLengthFieldLength + length))
    else []

def VCMPacket.units (packet : VCMPacket) : List Access :=
  naluUnits packet.payload packet.sizeBytes kH264NALHeaderLengthInBytes

def lengthField (unit : Access) : Access :=
  ⟨unit.offset - kLengthFieldLength, kLengthFieldLength⟩

namespace FrameMemory

variable (m : FrameMemory)

/-- `ShiftSubsequentPackets`, for the packets behind the new one. -/
def shiftSubsequentPackets (behind : List SessionPacket) (stepsToShift : ℕ) :
    FrameMemory × List SessionPacket :=
  match behind with
  | [] => (m, [])
  | first :: _ =>
    let shiftLength := (behind.map SessionPacket.sizeBytes).sum
    (m.write (advance first.dataPtr stepsToShift)
        (m.load first.dataPtr shiftLength),
      behind.map fun p =>
        { p with dataPtr := advance p.dataPtr stepsToShift })

def insertUnits (packet : VCMPacket) :
    FrameMemory → List Access → Option Pointer → FrameMemory
  | m, [], _ => m
  | m, unit :: units, ptr =>
    insertUnits packet
      ((m.readPacket packet (lengthField unit)).insert packet unit ptr)
      units (advance ptr (unit.length + packet.startCodeLength))

/-- `InsertBuffer`, for a packet between the others. -/
def insertBuffer (front : List SessionPacket) (packet : VCMPacket)
    (behind : List SessionPacket) :
    FrameMemory × List SessionPacket × ℕ :=
  let ptr := advance m.base (front.map SessionPacket.sizeBytes).sum
  if packet.stapA then
    let requiredLength :=
      (packet.units.map fun unit => unit.length + packet.startCodeLength).sum
    let m := packet.units.foldl
      (fun m unit => m.readPacket packet (lengthField unit)) m
    let shifted := m.shiftSubsequentPackets behind requiredLength
    (insertUnits packet shifted.1 packet.units ptr,
      front ++ ⟨packet, ptr, requiredLength⟩ :: shifted.2, requiredLength)
  else
    let shifted := m.shiftSubsequentPackets behind
      (packet.sizeBytes + packet.startCodeLength)
    (shifted.1.insert packet ⟨0, packet.sizeBytes⟩ ptr,
      front ++ ⟨packet, ptr, packet.sizeBytes + packet.startCodeLength⟩ ::
        shifted.2,
      packet.sizeBytes + packet.startCodeLength)

end FrameMemory

/-! ## The session -/

/-- The fields that `InsertPacket` uses; a sequence number that is -1 is
missing. -/
structure VCMSessionInfo where
  complete : Bool := false
  decodable : Bool := false
  frameType : FrameType := .kVideoFrameDelta
  packets : List SessionPacket := []
  emptySeqNumLow : Option UInt16 := none
  emptySeqNumHigh : Option UInt16 := none
  firstPacketSeqNum : Option UInt16 := none
  lastPacketSeqNum : Option UInt16 := none

namespace VCMSessionInfo

variable (s : VCMSessionInfo)

def informOfEmptyPacket (seqNum : UInt16) : VCMSessionInfo :=
  { s with
    emptySeqNumHigh :=
      match s.emptySeqNumHigh with
      | none => some seqNum
      | some high => some (latestSequenceNumber seqNum high)
    emptySeqNumLow :=
      match s.emptySeqNumLow with
      | none => some seqNum
      | some low =>
        if isNewerSequenceNumber low seqNum then some seqNum else some low }

def haveFirstPacket : Bool :=
  !s.packets.isEmpty && s.firstPacketSeqNum.isSome

def haveLastPacket : Bool :=
  !s.packets.isEmpty && s.lastPacketSeqNum.isSome

def inSequence (p prev : SessionPacket) : Bool := prev.seqNum + 1 = p.seqNum

/-- The loop of `UpdateCompleteSession`. -/
def allInSequence : List SessionPacket → Bool
  | prev :: p :: packets => inSequence p prev && allInSequence (p :: packets)
  | _ => true

def updateCompleteSession : VCMSessionInfo :=
  if s.haveFirstPacket && s.haveLastPacket then
    { s with complete := allInSequence s.packets }
  else s

/-- The search of `InsertPacket` goes over a packet. -/
def goesOver (seqNum : UInt16) (p : SessionPacket) : Bool :=
  latestSequenceNumber seqNum p.seqNum != seqNum

/-- The packets before and behind the place of a sequence number. -/
def front (seqNum : UInt16) : List SessionPacket :=
  s.packets.rdropWhile (goesOver seqNum)

def behind (seqNum : UInt16) : List SessionPacket :=
  s.packets.rtakeWhile (goesOver seqNum)

def isDuplicate (seqNum : UInt16) : Bool :=
  match (s.front seqNum).getLast? with
  | some p => decide (p.seqNum = seqNum) && decide (p.sizeBytes > 0)
  | none => false

/-- `a` is known and `seqNum` is newer. -/
def newerThan (seqNum : UInt16) (a : Option UInt16) : Bool :=
  a.any fun a => isNewerSequenceNumber seqNum a

/-- The first and the last packet of an H.264 frame can change. -/
def updateH264 (packet : VCMPacket) : VCMSessionInfo :=
  { s with
    frameType := packet.frameType
    firstPacketSeqNum :=
      if packet.isFirstPacket &&
          s.firstPacketSeqNum.all fun first =>
            isNewerSequenceNumber first packet.seqNum then
        some packet.seqNum
      else s.firstPacketSeqNum
    lastPacketSeqNum :=
      if packet.markerBit &&
          s.lastPacketSeqNum.all fun last =>
            isNewerSequenceNumber packet.seqNum last then
        some packet.seqNum
      else s.lastPacketSeqNum }

/-- The first half of the test for the frame's boundaries. -/
def updateFirst (packet : VCMPacket) : Option VCMSessionInfo :=
  if packet.isFirstPacket && s.firstPacketSeqNum.isNone then
    some
      { s with
        frameType := packet.frameType
        firstPacketSeqNum := some packet.seqNum }
  else if s.firstPacketSeqNum.isSome &&
      !newerThan packet.seqNum s.firstPacketSeqNum then none
  else if s.frameType = .kFrameEmpty ∧ packet.frameType ≠ .kFrameEmpty then
    some { s with frameType := packet.frameType }
  else some s

def updateLast (packet : VCMPacket) : Option VCMSessionInfo :=
  if packet.markerBit && s.lastPacketSeqNum.isNone then
    some { s with lastPacketSeqNum := some packet.seqNum }
  else if newerThan packet.seqNum s.lastPacketSeqNum then none
  else some s

/-- The session after the test, and whether the packet is within the
boundaries.  What the first half did stays when the second one fails. -/
def updateBoundaries (packet : VCMPacket) : VCMSessionInfo × Bool :=
  if packet.codec = .kVideoCodecH264 then (s.updateH264 packet, true)
  else
    match s.updateFirst packet with
    | none => (s, false)
    | some s =>
      match s.updateLast packet with
      | none => (s, false)
      | some s => (s, true)

/-- The thresholds of `UpdateDecodableSession` are floating-point numbers; what
they say of a session is a parameter. -/
def updateDecodableSession (selective : VCMSessionInfo → Bool) :
    VCMSessionInfo :=
  if s.complete || s.decodable then s
  else if selective s then { s with decodable := true }
  else s

/-- The buffer and the list with the packet in its place, and its bytes. -/
def insertInPlace (packet : VCMPacket) (m : FrameMemory) :
    FrameMemory × List SessionPacket × ℕ :=
  m.insertBuffer (s.front packet.seqNum) packet (s.behind packet.seqNum)

/-- The session and the buffer after `InsertPacket`, and what it returns. -/
def insertPacket (selective : VCMSessionInfo → Bool)
    (decodeErrorMode : VCMDecodeErrorMode) (packet : VCMPacket)
    (m : FrameMemory) : VCMSessionInfo × FrameMemory × ℤ :=
  if packet.frameType = .kFrameEmpty then
    (s.informOfEmptyPacket packet.seqNum, m, 0)
  else if s.packets.length = kMaxPacketsInSession then (s, m, -1)
  else if s.isDuplicate packet.seqNum then (s, m, -2)
  else
    let bounded := s.updateBoundaries packet
    if bounded.2 = false then (bounded.1, m, -3)
    else
      let inserted := s.insertInPlace packet m
      let t :=
        { bounded.1 with packets := inserted.2.1 }.updateCompleteSession
      (match decodeErrorMode with
        | .kWithErrors => { t with decodable := true }
        | .kSelectiveErrors => t.updateDecodableSession selective
        | .kNoErrors => t,
        inserted.1, inserted.2.2)

variable {s} (selective : VCMSessionInfo → Bool)
  (decodeErrorMode : VCMDecodeErrorMode) {packet : VCMPacket}

/-- The session after a packet was put between the others. -/
def withPackets (s : VCMSessionInfo) (packets : List SessionPacket) :
    VCMSessionInfo :=
  { s with packets := packets }.updateCompleteSession

@[simp] theorem updateCompleteSession_packets :
    s.updateCompleteSession.packets = s.packets := by
  rw [updateCompleteSession]
  split <;> rfl

/-- Only `complete_` and the list change. -/
theorem withPackets_eq (packets : List SessionPacket) :
    ∃ complete, s.withPackets packets =
      { s with
        packets := packets
        complete := complete } := by
  rw [withPackets, updateCompleteSession]
  split
  · exact ⟨_, rfl⟩
  · exact ⟨s.complete, rfl⟩

@[simp] theorem withPackets_packets (packets : List SessionPacket) :
    (s.withPackets packets).packets = packets := by
  rw [withPackets, updateCompleteSession_packets]

/-- A packet that is accepted is put in its place; only `decodable_` depends on
the mode. -/
theorem insertPacket_accepted {t : VCMSessionInfo} (m : FrameMemory)
    (hmedia : packet.frameType ≠ .kFrameEmpty)
    (hlength : s.packets.length ≠ kMaxPacketsInSession)
    (hduplicate : s.isDuplicate packet.seqNum = false)
    (hbounded : s.updateBoundaries packet = (t, true)) :
    ∃ decodable, s.insertPacket selective decodeErrorMode packet m =
      ({ t.withPackets (s.insertInPlace packet m).2.1 with
          decodable := decodable },
        (s.insertInPlace packet m).1, ((s.insertInPlace packet m).2.2 : ℤ)) := by
  rw [insertPacket, if_neg hmedia, if_neg hlength,
    if_neg (by rw [hduplicate]; exact Bool.noConfusion), hbounded]
  dsimp only
  rw [if_neg (by decide)]
  cases decodeErrorMode with
  | kNoErrors => exact ⟨_, rfl⟩
  | kWithErrors => exact ⟨true, rfl⟩
  | kSelectiveErrors =>
    dsimp only
    rw [updateDecodableSession]
    split_ifs
    · exact ⟨_, rfl⟩
    · exact ⟨true, rfl⟩
    · exact ⟨_, rfl⟩

theorem insertPacket_outside {t : VCMSessionInfo} (m : FrameMemory)
    (hmedia : packet.frameType ≠ .kFrameEmpty)
    (hlength : s.packets.length ≠ kMaxPacketsInSession)
    (hduplicate : s.isDuplicate packet.seqNum = false)
    (hbounded : s.updateBoundaries packet = (t, false)) :
    s.insertPacket selective decodeErrorMode packet m = (t, m, -3) := by
  rw [insertPacket, if_neg hmedia, if_neg hlength,
    if_neg (by rw [hduplicate]; exact Bool.noConfusion), hbounded]
  rfl

theorem insertPacket_refused (m : FrameMemory)
    (hmedia : packet.frameType ≠ .kFrameEmpty)
    (h : s.packets.length = kMaxPacketsInSession ∨
      s.isDuplicate packet.seqNum = true) :
    ∃ r < 0, s.insertPacket selective decodeErrorMode packet m = (s, m, r) := by
  rw [insertPacket, if_neg hmedia]
  by_cases hlength : s.packets.length = kMaxPacketsInSession
  · rw [if_pos hlength]
    exact ⟨-1, by decide, rfl⟩
  · rw [if_neg hlength, if_pos (h.resolve_left hlength)]
    exact ⟨-2, by decide, rfl⟩

end VCMSessionInfo

namespace SessionPacket

def contents (p : SessionPacket) : VCMPacket × ℕ := (p.packet, p.sizeBytes)

end SessionPacket

namespace FrameMemory

theorem shiftSubsequentPackets_contents (m : FrameMemory)
    (behind : List SessionPacket) (n : ℕ) :
    (m.shiftSubsequentPackets behind n).2.map SessionPacket.contents =
      behind.map SessionPacket.contents := by
  cases behind with
  | nil => rfl
  | cons first behind =>
    rw [shiftSubsequentPackets, List.map_map]
    rfl

end FrameMemory

end WebrtcWinXp.VideoCoding
