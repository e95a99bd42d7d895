import WebrtcWinXp.Fec.Packet
import WebrtcWinXp.Rtp.HeaderParser
import WebrtcWinXp.Support.Traced

/-!
# RED packets

`FecReceiverImpl::AddReceivedRedPacket`, which takes the RED header out of a
received packet, with everything it reads in the packet and writes into the
packets it queues; and `ProducerFec::BuildRedPacket`, which puts one in.
Assertions are not modelled.
-/

namespace WebrtcWinXp.Fec

open Support

/-- A received RTP packet with its parsed header. -/
structure ReceivedRtp where
  packet : Buffer
  header : Rtp.RTPHeader
  minimum : kRtpHeaderSize ≤ header.headerLength.toNat
  fits : header.headerLength.toNat ≤ packet.size

/-- A range of the received packet that is read, or one of the data of a queued
packet that is written. -/
inductive Touch where
  | read (a : Access)
  | write (a : Access)

/-- A packet of the list; the SSRC is not set by every branch. -/
structure Queued where
  seqNum : UInt16
  ssrc : Option UInt32
  isFec : Bool
  pkt : Packet

/-- The number of bytes that `memcpy` gets for a difference of lengths. -/
def memcpySize (n : ℤ) : ℕ := (n % 2 ^ 32).toNat

/-- A difference of lengths in the 16 bits of a packet's length. -/
def packetLength (n : ℤ) : ℕ := (n % 2 ^ 16).toNat

namespace ReceivedRtp

variable (p : ReceivedRtp)

def headerLength : ℕ := p.header.headerLength.toNat

def payloadLength : ℕ := p.packet.size - p.headerLength

/-- `payload_data_length`, a difference in 16 bits. -/
def payloadDataLength : ℕ := p.payloadLength % 2 ^ 16

def ssrc : UInt32 := UInt32.ofNat (ofBE (p.packet.read ⟨8, 4⟩))

/-! ## Unpacking -/

/-- The data of a packet after bytes of the received one were copied to it. -/
def copied (data : ℕ → UInt8) (pos : ℕ) (a : Access) : ℕ → UInt8 := fun i =>
  if pos ≤ i ∧ i < pos + a.length then p.packet.byte (a.offset + (i - pos))
  else data i

def memcpy (data : ℕ → UInt8) (pos : ℕ) (a : Access) :
    Traced Touch (ℕ → UInt8) :=
  ⟨p.copied data pos a, [.read a, .write ⟨pos, a.length⟩]⟩

def redByte (i : ℕ) : Traced Touch UInt8 :=
  .touch (.read ⟨p.headerLength + i, 1⟩) (p.packet.byte (p.headerLength + i))

/-- What is read of a RED header: the type and the length of the first block,
and the length of the RED header. -/
structure RedHeader where
  payloadType : UInt8
  blockLength : ℕ
  redHeaderLength : ℕ

def blockLengthOf (high low : UInt8) : ℕ :=
  ((high &&& 0x03).toNat <<< 8) + low.toNat

def readRedHeader : Traced Touch (Option RedHeader) := do
  let first ← p.redByte 0
  if first &&& 0x80 = 0 then return some ⟨first &&& 0x7f, 0, 1⟩
  let second ← p.redByte 1
  let third ← p.redByte 2
  if word16 second third >>> 2 ≠ 0 then return none
  let fourth ← p.redByte 3
  let fifth ← p.redByte 4
  if fifth &&& 0x80 ≠ 0 then return none
  let blockLength := blockLengthOf third fourth
  if (p.payloadDataLength : ℤ) - 4 < blockLength then return none
  return some ⟨first &&& 0x7f, blockLength, 4⟩

/-- The RTP header with the payload type of a block, in a new packet. -/
def copyRtpHeader (payloadType : UInt8) : Traced Touch (ℕ → UInt8) := do
  let data ← p.memcpy (fun _ => 0) 0 ⟨0, p.headerLength⟩
  Traced.touch (.write ⟨1, 1⟩) fun i =>
    if i = 1 then (data 1 &&& 0x80) + payloadType else data i

/-- Two blocks; the length of the first packet is the one of its block. -/
def unpackTwo (ulpfecPayloadType : UInt8) (r : RedHeader) :
    Traced Touch (List Queued) := do
  let data ← p.copyRtpHeader r.payloadType
  let data ← p.memcpy data p.headerLength
    ⟨p.headerLength + 5, r.blockLength⟩
  let rest : ℤ := p.payloadDataLength - 5 - r.blockLength
  let second ← p.memcpy (fun _ => 0) 0
    ⟨p.headerLength + 5 + r.blockLength, memcpySize rest⟩
  pure [
    ⟨p.header.sequenceNumber, none, r.payloadType = ulpfecPayloadType,
      r.blockLength, data⟩,
    ⟨p.header.sequenceNumber, none, true, packetLength rest, second⟩]

/-- Everything behind the RED header as a FEC packet. -/
def unpackFec (r : RedHeader) : Traced Touch (List Queued) := do
  let rest : ℤ := p.payloadDataLength - r.redHeaderLength
  let data ← p.memcpy (fun _ => 0) 0
    ⟨p.headerLength + r.redHeaderLength, memcpySize rest⟩
  let ssrc ← Traced.touch (.read ⟨8, 4⟩) p.ssrc
  if packetLength rest = 0 then return []
  return [
    ⟨p.header.sequenceNumber, some ssrc, true, packetLength rest, data⟩]

/-- Everything behind the RED header as a media packet. -/
def unpackMedia (r : RedHeader) : Traced Touch (List Queued) := do
  let rest : ℤ := p.payloadDataLength - r.redHeaderLength
  let data ← p.copyRtpHeader r.payloadType
  let data ← p.memcpy data p.headerLength
    ⟨p.headerLength + r.redHeaderLength, memcpySize rest⟩
  let length := packetLength (p.headerLength + rest)
  if length = 0 then return []
  return [⟨p.header.sequenceNumber, none, false, length, data⟩]

/-- The packets that `AddReceivedRedPacket` queues; nothing where it returns
-1. -/
def addReceivedRedPacket (ulpfecPayloadType : UInt8) :
    Traced Touch (Option (List Queued)) := do
  match ← p.readRedHeader with
  | none => return none
  | some r =>
    if 0 < r.blockLength then some <$> p.unpackTwo ulpfecPayloadType r
    else if r.payloadType = ulpfecPayloadType then some <$> p.unpackFec r
    else some <$> p.unpackMedia r

/-- A block of a RED payload: its type, and where its bytes are. -/
structure Block where
  payloadType : UInt8
  data : Access

def firstType : UInt8 := p.packet.byte p.headerLength &&& 0x7f

/-- The F bit: the first block is not the last one. -/
def followed : Bool := p.packet.byte p.headerLength &&& 0x80 != 0

def timestampOffset : UInt16 :=
  bufferToUWord16 p.packet.byte (p.headerLength + 1) >>> 2

def blockLength : ℕ :=
  blockLengthOf (p.packet.byte (p.headerLength + 2))
    (p.packet.byte (p.headerLength + 3))

def followedAgain : Bool := p.packet.byte (p.headerLength + 4) &&& 0x80 != 0

/-- The blocks of a payload with one or two of them. -/
def blocks : List Block :=
  if p.followed then
    let behind := p.headerLength + 5 + p.blockLength
    [⟨p.firstType, p.headerLength + 5, p.blockLength⟩,
      ⟨p.packet.byte (p.headerLength + 4) &&& 0x7f, behind,
        p.packet.size - behind⟩]
  else
    [⟨p.firstType, p.headerLength + 1, p.packet.size - (p.headerLength + 1)⟩]

end ReceivedRtp

/-- A media packet: an RTP header and a payload. -/
structure MediaPacket where
  rtpHeader : List UInt8
  payload : List UInt8
  minimum : kRtpHeaderSize ≤ rtpHeader.length

namespace MediaPacket

variable (m : MediaPacket)

def bytes : List UInt8 := m.rtpHeader ++ m.payload

def payloadType : UInt8 := m.rtpHeader.getD 1 0 &&& 0x7f

/-- `ProducerFec::BuildRedPacket`: `CreateHeader` and `AssignPayload`. -/
def buildRedPacket (redPlType : UInt8) : List UInt8 :=
  m.rtpHeader.set 1 ((m.rtpHeader.getD 1 0 &&& 0x80) + redPlType) ++
    m.payloadType :: m.payload

end MediaPacket

end WebrtcWinXp.Fec
