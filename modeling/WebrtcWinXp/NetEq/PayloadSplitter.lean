import WebrtcWinXp.NetEq.Packet
import WebrtcWinXp.Support.Traced

/-!
# `PayloadSplitter`

`SplitRed`, with everything it reads in the payloads and allocates, and
`SplitAudio`.  Loops that may not end are given the number of rounds.
-/

namespace WebrtcWinXp.NetEq

open Support

inductive SplitterReturnCodes where
  | kOK
  | kNoSplit
  | kTooLargePayload
  | kFrameSplitError
  | kUnknownPayloadType
  | kRedLengthMismatch
  | kFecSplitError
  deriving DecidableEq, Repr

namespace PayloadSplitter

/-! ## `SplitRed` -/

/-- A range of a payload that is read, or a size that is allocated. -/
inductive Touch where
  | read (payload : Buffer) (a : Access)
  | allocate (size : ℤ)

/-- A new packet that does not have its payload yet. -/
structure RedBlock where
  header : Rtp.RTPHeader
  payloadLength : ℤ
  primary : Bool

/-- The loop over the RED headers; `offset` is where `payload_ptr` points. -/
structure RedHeaders where
  offset : ℕ := 0
  lastBlock : Bool := false
  sumLength : ℤ := 0
  newPackets : List RedBlock := []

section Red

variable (redPacket : Packet) (payload : Buffer)

def redByte (i : ℕ) : Traced Touch UInt8 :=
  .touch (.read payload ⟨i, 1⟩) (payload.byte i)

/-- The last RED header, after its byte was read. -/
def lastHeader (s : RedHeaders) (first : UInt8) : RedHeaders :=
  let payloadLength : ℤ := redPacket.payloadLength - (s.sumLength + 1)
  { offset := s.offset + 1
    lastBlock := true
    sumLength := s.sumLength + 1 + payloadLength + 4
    newPackets := s.newPackets ++ [{
      header := { redPacket.header with
        payloadType := first &&& 0x7F }
      payloadLength := payloadLength
      primary := true }] }

/-- A RED header that another one follows, after its bytes were read. -/
def furtherHeader (s : RedHeaders) (first second third fourth : UInt8) :
    RedHeaders :=
  let timestampOffset := (second.toNat <<< 6) + ((third &&& 0xFC) >>> 2).toNat
  let payloadLength := ((third &&& 0x03).toNat <<< 8) + fourth.toNat
  { offset := s.offset + 4
    lastBlock := false
    sumLength := s.sumLength + payloadLength + 4
    newPackets := s.newPackets ++ [{
      header := { redPacket.header with
        payloadType := first &&& 0x7F
        timestamp :=
          redPacket.header.timestamp - UInt32.ofNat timestampOffset }
      payloadLength := payloadLength
      primary := false }] }

def readRedHeader (s : RedHeaders) : Traced Touch (Option RedHeaders) :=
  if s.lastBlock then pure none
  else do
    let first ← redByte payload s.offset
    if first &&& 0x80 = 0 then pure (some (lastHeader redPacket s first))
    else do
      let second ← redByte payload (s.offset + 1)
      let third ← redByte payload (s.offset + 2)
      let fourth ← redByte payload (s.offset + 3)
      pure (some (furtherHeader redPacket s first second third fourth))

/-- What takes the place of a RED packet, and whether the block lengths match
the payload. -/
structure RedSplit where
  packets : List Packet
  complete : Bool

/-- The loop that gives the new packets their payload, from `payload_ptr`. -/
def populate : List RedBlock → ℤ → Traced Touch RedSplit
  | [], _ => pure ⟨[], true⟩
  | block :: blocks, ptr =>
    if ptr + block.payloadLength > payload.size then pure ⟨[], false⟩
    else do
      let _ ← Traced.touch (.allocate block.payloadLength) ()
      let a : Access := ⟨ptr.toNat, block.payloadLength.toNat⟩
      let bytes ← Traced.touch (.read payload a) (payload.read a)
      let rest ← populate blocks (ptr + block.payloadLength)
      pure {
        packets := {
          header := block.header
          payload := bytes
          primary := block.primary } :: rest.packets
        complete := rest.complete }

/-- One RED packet; no value when its headers need more rounds. -/
def splitRedPacket (rounds : ℕ) : Traced Touch (Option RedSplit) := do
  match ← Traced.loop (readRedHeader redPacket payload) rounds {} with
  | none => pure none
  | some s => do
      let split ← populate payload s.newPackets s.offset
      pure (some { split with
        packets := split.packets.reverse })

end Red

/-- A RED packet and the memory behind its payload. -/
structure StoredPacket where
  packet : Packet
  beyond : ℕ → UInt8

def StoredPacket.buffer (p : StoredPacket) : Buffer :=
  .ofList p.packet.payload p.beyond

/-- The loop over the packets, with the return value so far. -/
def splitRedFrom (rounds : ℕ) (ret : SplitterReturnCodes) :
    List StoredPacket →
      Traced Touch (Option (SplitterReturnCodes × List Packet))
  | [] => pure (some (ret, []))
  | p :: packetList => do
      match ← splitRedPacket p.packet p.buffer rounds with
      | none => pure none
      | some split => do
          let ret := if split.complete then ret else .kRedLengthMismatch
          let rest ← splitRedFrom rounds ret packetList
          pure (rest.map fun r => (r.1, split.packets ++ r.2))

def splitRed (rounds : ℕ) (packetList : List StoredPacket) :
    Traced Touch (Option (SplitterReturnCodes × List Packet)) :=
  splitRedFrom rounds .kOK packetList

/-! ## `SplitAudio` -/

/-- What is left of a payload, and its timestamp. -/
structure Splitting where
  timestamp : UInt32
  payload : List UInt8
  newPackets : List Packet := []

def newPacket (packet : Packet) (timestamp : UInt32) (payload : List UInt8) :
    Packet where
  header := { packet.header with
    timestamp := timestamp }
  payload := payload
  primary := packet.primary

def Splitting.cut (packet : Packet) (bytes timestamps : ℕ) (s : Splitting) :
    Splitting where
  timestamp := s.timestamp + UInt32.ofNat timestamps
  payload := s.payload.drop bytes
  newPackets := s.newPackets ++
    [newPacket packet s.timestamp (s.payload.take bytes)]

def halve (minChunkSize splitSizeBytes : ℕ) : Option ℕ :=
  if splitSizeBytes ≥ 2 * minChunkSize then some (splitSizeBytes >>> 1)
  else none

/-- The chunk size, which is halved down to below twice the minimum. -/
def splitSize (bytesPerMs payloadLength : ℕ) : ℕ :=
  finish (halve (bytesPerMs * 20)) id payloadLength

def cutChunk (packet : Packet) (splitSizeBytes timestampsPerChunk : ℕ)
    (s : Splitting) : Option Splitting :=
  if s.payload.length ≥ 2 * splitSizeBytes then
    some (s.cut packet splitSizeBytes timestampsPerChunk)
  else none

/-- `SplitBySamples`; nothing when the loop needs more rounds. -/
def splitBySamples (rounds : ℕ) (packet : Packet)
    (bytesPerMs timestampsPerMs : ℕ) : Option (List Packet) :=
  let splitSizeBytes := splitSize bytesPerMs packet.payloadLength
  let timestampsPerChunk := splitSizeBytes * timestampsPerMs / bytesPerMs
  (loop (cutChunk packet splitSizeBytes timestampsPerChunk) rounds
    ⟨packet.header.timestamp, packet.payload, []⟩).map fun s =>
      if 0 < s.payload.length then
        s.newPackets ++ [newPacket packet s.timestamp s.payload]
      else s.newPackets

def cutFrame (packet : Packet) (bytesPerFrame timestampsPerFrame : ℕ)
    (s : Splitting) : Option Splitting :=
  if 0 < s.payload.length then
    some (s.cut packet bytesPerFrame timestampsPerFrame)
  else none

def splitByFrames (rounds : ℕ) (packet : Packet)
    (bytesPerFrame timestampsPerFrame : ℕ) :
    Option (SplitterReturnCodes × List Packet) :=
  if packet.payloadLength % bytesPerFrame ≠ 0 then some (.kFrameSplitError, [])
  else if packet.payloadLength / bytesPerFrame = 1 then some (.kNoSplit, [])
  else
    (loop (cutFrame packet bytesPerFrame timestampsPerFrame) rounds
      ⟨packet.header.timestamp, packet.payload, []⟩).map fun s =>
        (.kOK, s.newPackets)

/-- The bytes and the timestamps per ms of the codec types that are split by
samples. -/
def sampleRates : NetEqDecoder → Option (ℕ × ℕ)
  | .kDecoderPCMu | .kDecoderPCMa => some (8, 8)
  | .kDecoderPCMu_2ch | .kDecoderPCMa_2ch => some (2 * 8, 8)
  | .kDecoderG722 => some (8, 16)
  | .kDecoderPCM16B => some (16, 8)
  | .kDecoderPCM16Bwb => some (32, 16)
  | .kDecoderPCM16Bswb32kHz => some (64, 32)
  | .kDecoderPCM16Bswb48kHz => some (96, 48)
  | .kDecoderPCM16B_2ch => some (2 * 16, 8)
  | .kDecoderPCM16Bwb_2ch => some (2 * 32, 16)
  | .kDecoderPCM16Bswb32kHz_2ch => some (2 * 64, 32)
  | .kDecoderPCM16Bswb48kHz_2ch => some (2 * 96, 48)
  | .kDecoderPCM16B_5ch => some (5 * 16, 8)
  | _ => none

/-- The bytes and the timestamps of an iLBC frame, by the payload length. -/
def ilbcFrame (payloadLength : ℕ) : Option (ℕ × ℕ) :=
  if payloadLength % 38 = 0 then some (38, 160)
  else if payloadLength % 50 = 0 then some (50, 240)
  else none

/-- What becomes of a packet: it stays, new ones take its place, or the method
returns. -/
inductive Outcome where
  | keep
  | replace (newPackets : List Packet)
  | fail (ret : SplitterReturnCodes)

def splitIlbc (rounds : ℕ) (packet : Packet) : Option Outcome :=
  if packet.payloadLength ≥ 950 then some (.fail .kTooLargePayload)
  else
    match ilbcFrame packet.payloadLength with
    | none => some (.fail .kFrameSplitError)
    | some (bytesPerFrame, timestampsPerFrame) =>
      (splitByFrames rounds packet bytesPerFrame timestampsPerFrame).map
        fun
        | (.kOK, newPackets) => .replace newPackets
        | (.kNoSplit, _) => .keep
        | (ret, _) => .fail ret

/-- One packet of `SplitAudio`. -/
def splitPacket (rounds : ℕ) (decoderDatabase : DecoderDatabase)
    (packet : Packet) : Option Outcome :=
  match decoderDatabase.getDecoderInfo packet.header.payloadType with
  | none => some (.fail .kUnknownPayloadType)
  | some codecType =>
    if packet.syncPacket then some .keep
    else if codecType = .kDecoderILBC then splitIlbc rounds packet
    else
      match sampleRates codecType with
      | some (bytesPerMs, timestampsPerMs) =>
        (splitBySamples rounds packet bytesPerMs timestampsPerMs).map
          .replace
      | none => some .keep

/-- The return value, and what stands in the place of each packet. -/
def splitAudio (rounds : ℕ) (decoderDatabase : DecoderDatabase) :
    List Packet → Option (SplitterReturnCodes × List (List Packet))
  | [] => some (.kOK, [])
  | packet :: packetList =>
    match splitPacket rounds decoderDatabase packet with
    | none => none
    | some (.fail ret) => some (ret, (packet :: packetList).map fun p => [p])
    | some .keep =>
      (splitAudio rounds decoderDatabase packetList).map fun r =>
        (r.1, [packet] :: r.2)
    | some (.replace newPackets) =>
      (splitAudio rounds decoderDatabase packetList).map fun r =>
        (r.1, newPackets :: r.2)

end PayloadSplitter

end WebrtcWinXp.NetEq
