import WebrtcWinXp.Support.Bytes
import WebrtcWinXp.Support.Loop

/-!
# Packetizing H.264

`RtpPacketizerH264`: the NAL units of a frame are put into a queue of packets,
as fragments of one unit (FU-A) or as units that share a packet (STAP-A), and
the payloads are written from the queue.
-/

namespace WebrtcWinXp.H264

open Support

def kIdr : UInt8 := 5
def kSps : UInt8 := 7
def kPps : UInt8 := 8
def kStapA : UInt8 := 24
def kFuA : UInt8 := 28

def kNalHeaderSize : ℕ := 1
def kFuAHeaderSize : ℕ := 2
def kLengthFieldSize : ℕ := 2

def kFBit : UInt8 := 0x80
def kNriMask : UInt8 := 0x60
def kTypeMask : UInt8 := 0x1F

def kSBit : UInt8 := 0x80
def kEBit : UInt8 := 0x40

/-- An entry of `RTPFragmentationHeader`. -/
structure Fragment where
  fragmentationOffset : ℕ
  fragmentationLength : ℕ

structure Packet where
  offset : ℕ
  size : ℕ
  firstFragment : Bool
  lastFragment : Bool
  aggregated : Bool
  header : UInt8

/-- The frame and the limit; the queue is passed along. -/
structure RtpPacketizerH264 where
  payloadData : List UInt8
  maxPayloadLen : ℕ
  fragmentation : List Fragment

def slice (payloadData : List UInt8) (offset size : ℕ) : List UInt8 :=
  (payloadData.drop offset).take size

namespace RtpPacketizerH264

variable (p : RtpPacketizerH264)

def headerAt (offset : ℕ) : UInt8 := p.payloadData.getD offset 0

structure FuA where
  offset : ℕ
  fragmentLength : ℕ
  packets : List Packet

/-- A round of the loop in `PacketizeFuA`. -/
def fuAStep (fragmentOffset avgSize : ℕ) (c : FuA) : Option FuA :=
  if c.fragmentLength > 0 then
    let packetLength :=
      if c.fragmentLength < avgSize then c.fragmentLength else avgSize
    some
      { offset := c.offset + packetLength
        fragmentLength := c.fragmentLength - packetLength
        packets := c.packets ++
          [{ offset := c.offset
             size := packetLength
             firstFragment := c.offset - kNalHeaderSize = fragmentOffset
             lastFragment := c.fragmentLength = packetLength
             aggregated := false
             header := p.headerAt fragmentOffset }] }
  else none

def packetizeFuA (fragmentOffset fragmentLength : ℕ) (packets : List Packet) :
    List Packet :=
  let fragmentLength := fragmentLength - kNalHeaderSize
  let bytesAvailable := p.maxPayloadLen - kFuAHeaderSize
  let fragments := (fragmentLength + (bytesAvailable - 1)) / bytesAvailable
  let avgSize := (fragmentLength + fragments - 1) / fragments
  (finish (p.fuAStep fragmentOffset avgSize) FuA.fragmentLength
    ⟨fragmentOffset + kNalHeaderSize, fragmentLength, packets⟩).packets

/-- The loop in `PacketizeStapA`: the packets for the fragments that fit, and
the fragments that are left. -/
def stapALoop (payloadSizeLeft fragmentHeadersLength aggregatedFragments : ℕ) :
    List Fragment → List Packet × List Fragment
  | [] => ([], [])
  | f :: fs =>
    if payloadSizeLeft ≥ f.fragmentationLength + fragmentHeadersLength then
      let (packets, rest) := stapALoop
        (payloadSizeLeft - f.fragmentationLength - fragmentHeadersLength)
        (if aggregatedFragments = 0 then
          kLengthFieldSize + (kNalHeaderSize + kLengthFieldSize)
        else kLengthFieldSize)
        (aggregatedFragments + 1) fs
      ({ offset := f.fragmentationOffset
         size := f.fragmentationLength
         firstFragment := aggregatedFragments = 0
         lastFragment := false
         aggregated := true
         header := p.headerAt f.fragmentationOffset } :: packets, rest)
    else ([], f :: fs)

/-- `packets_.back().last_fragment = true`. -/
def markLast : List Packet → List Packet
  | [] => []
  | [packet] =>
    [{ packet with
        lastFragment := true }]
  | packet :: packet' :: packets => packet :: markLast (packet' :: packets)

def packetizeStapA (fragments : List Fragment) (packets : List Packet) :
    List Packet × List Fragment :=
  let (aggregated, rest) := p.stapALoop p.maxPayloadLen 0 0 fragments
  (markLast (packets ++ aggregated), rest)

/-- A round of the loop in `GeneratePackets`. -/
def generateStep : List Packet × List Fragment →
    Option (List Packet × List Fragment)
  | (_, []) => none
  | (packets, f :: fs) =>
    if f.fragmentationLength > p.maxPayloadLen then
      some (p.packetizeFuA f.fragmentationOffset f.fragmentationLength
        packets, fs)
    else some (p.packetizeStapA (f :: fs) packets)

def generatePackets : List Packet :=
  (finish p.generateStep (fun s => s.2.length) ([], p.fragmentation)).1

/-! ## Writing the payloads -/

/-- A payload and whether it is the last one of the frame. -/
structure Output where
  buffer : List UInt8
  lastPacket : Bool

/-- The loop in `NextAggregatePacket`. -/
def aggregateLoop : List Packet → List UInt8 × List Packet
  | [] => ([], [])
  | packet :: packets =>
    if packet.aggregated then
      let unit := toBE kLengthFieldSize packet.size ++
        slice p.payloadData packet.offset packet.size
      if packet.lastFragment then (unit, packets)
      else
        let (buffer, rest) := aggregateLoop packets
        (unit ++ buffer, rest)
    else ([], packet :: packets)

def nextAggregatePacket (packet : Packet) (packets : List Packet) :
    List UInt8 × List Packet :=
  let (buffer, rest) := p.aggregateLoop (packet :: packets)
  ((packet.header &&& (kFBit ||| kNriMask) ||| kStapA) :: buffer, rest)

def nextFragmentPacket (packet : Packet) : List UInt8 :=
  let fuIndicator := packet.header &&& (kFBit ||| kNriMask) ||| kFuA
  let fuHeader := (if packet.firstFragment then kSBit else 0) |||
    (if packet.lastFragment then kEBit else 0) |||
    (packet.header &&& kTypeMask)
  fuIndicator :: fuHeader :: slice p.payloadData packet.offset packet.size

/-- The payload that `NextPacket` writes, and the queue afterwards. -/
def nextBuffer (packet : Packet) (packets : List Packet) :
    List UInt8 × List Packet :=
  if packet.firstFragment && packet.lastFragment then
    (slice p.payloadData packet.offset packet.size, packets)
  else if packet.aggregated then p.nextAggregatePacket packet packets
  else (p.nextFragmentPacket packet, packets)

theorem length_aggregateLoop_le (packets : List Packet) :
    (p.aggregateLoop packets).2.length ≤ packets.length := by
  induction packets with
  | nil => exact le_rfl
  | cons packet packets ih =>
    rw [aggregateLoop, List.length_cons]
    split_ifs
    · exact Nat.le_succ _
    · exact ih.trans (Nat.le_succ _)
    · exact le_rfl

theorem length_nextBuffer_le (packet : Packet) (packets : List Packet) :
    (p.nextBuffer packet packets).2.length ≤ packets.length := by
  unfold nextBuffer
  split_ifs with hsingle haggregated
  · exact le_rfl
  · rw [nextAggregatePacket, aggregateLoop, if_pos haggregated]
    split_ifs
    · exact le_rfl
    · exact p.length_aggregateLoop_le packets
  · exact le_rfl

/-- `NextPacket`, which returns false for the empty queue. -/
def nextPacket : List Packet → Option (Output × List Packet)
  | [] => none
  | packet :: packets =>
    let (buffer, rest) := p.nextBuffer packet packets
    some (⟨buffer, rest.isEmpty⟩, rest)

theorem length_nextPacket_lt {packets rest : List Packet} {o : Output}
    (h : p.nextPacket packets = some (o, rest)) :
    rest.length < packets.length := by
  cases packets with
  | nil => cases h
  | cons packet packets =>
    cases h
    exact Nat.lt_succ_of_le (p.length_nextBuffer_le packet packets)

/-- What `NextPacket` gives until it returns false. -/
def nextPackets (packets : List Packet) : List Output :=
  match _h : p.nextPacket packets with
  | none => []
  | some (o, rest) => o :: nextPackets rest
termination_by packets.length
decreasing_by exact p.length_nextPacket_lt _h

theorem nextPackets_nil : p.nextPackets [] = [] := by
  rw [nextPackets]
  rfl

theorem nextPackets_cons (packet : Packet) (packets : List Packet) :
    p.nextPackets (packet :: packets) =
      ⟨(p.nextBuffer packet packets).1,
        (p.nextBuffer packet packets).2.isEmpty⟩ ::
        p.nextPackets (p.nextBuffer packet packets).2 := by
  rw [nextPackets]
  rfl

def payloads : List Output := p.nextPackets p.generatePackets

end RtpPacketizerH264

/-!
## Depacketizing H.264

`RtpDepacketizerH264::Parse`, and the NAL units that a sequence of payloads
carries.
-/

section

open Support

inductive FrameType where
  | kVideoFrameKey
  | kVideoFrameDelta

/-- The fields of the RTP header that `Parse` sets, and the payload it hands
over. -/
structure ParsedPayload where
  frameType : FrameType
  isFirstPacket : Bool
  singleNalu : Bool
  stapA : Bool
  payload : List UInt8

/-- `ParseSingleNalu`; nothing if it reads behind the end. -/
def parseSingleNalu (payloadData : List UInt8) : Option ParsedPayload := do
  let first ← payloadData[0]?
  let stapA : Bool := first &&& kTypeMask = kStapA
  let nalType ←
    if stapA then payloadData[3]?.map (· &&& kTypeMask)
    else some (first &&& kTypeMask)
  some
    { frameType :=
        if nalType = kSps ∨ nalType = kPps ∨ nalType = kIdr then
          .kVideoFrameKey
        else .kVideoFrameDelta
      isFirstPacket := true
      singleNalu := true
      stapA := stapA
      payload := payloadData }

/-- `ParseFuaNalu`: in a first fragment, the NAL header is put in the place of
the FU header. -/
def parseFuaNalu (payloadData : List UInt8) : Option ParsedPayload := do
  let indicator ← payloadData[0]?
  let fuHeader ← payloadData[1]?
  let fnri := indicator &&& (kFBit ||| kNriMask)
  let originalNalType := fuHeader &&& kTypeMask
  let firstFragment : Bool := fuHeader &&& kSBit > 0
  let originalNalHeader := fnri ||| originalNalType
  some
    { frameType :=
        if originalNalType = kIdr then .kVideoFrameKey else .kVideoFrameDelta
      isFirstPacket := firstFragment
      singleNalu := false
      stapA := false
      payload :=
        if firstFragment then
          (payloadData.set kNalHeaderSize originalNalHeader).drop kNalHeaderSize
        else payloadData.drop kFuAHeaderSize }

def parse (payloadData : List UInt8) : Option ParsedPayload := do
  let first ← payloadData[0]?
  if first &&& kTypeMask = kFuA then parseFuaNalu payloadData
  else parseSingleNalu payloadData

/-- The loop over the NAL units of a STAP-A payload, behind its first byte. -/
def splitUnits : List UInt8 → Option (List (List UInt8))
  | [] => some []
  | [_] => none
  | a :: b :: rest =>
    let length := ofBE [a, b]
    if rest.length < length then none
    else (splitUnits (rest.drop length)).map (rest.take length :: ·)
termination_by bytes => bytes.length
decreasing_by
  rw [List.length_drop, List.length_cons, List.length_cons]
  omega

def splitStapA (payload : List UInt8) : Option (List (List UInt8)) :=
  splitUnits (payload.drop kNalHeaderSize)

/-- The NAL units after one more payload: those of a STAP-A payload, a new one,
or the last one with a fragment appended. -/
def join (nalUnits : List (List UInt8)) (parsed : ParsedPayload) :
    Option (List (List UInt8)) :=
  if parsed.stapA then (splitStapA parsed.payload).map (nalUnits ++ ·)
  else if parsed.isFirstPacket then some (nalUnits ++ [parsed.payload])
  else
    nalUnits.getLast?.map fun last =>
      nalUnits.dropLast ++ [last ++ parsed.payload]

def receive (nalUnits : List (List UInt8)) (payloadData : List UInt8) :
    Option (List (List UInt8)) :=
  (parse payloadData).bind (join nalUnits)

def depacketize (payloads : List (List UInt8)) : Option (List (List UInt8)) :=
  payloads.foldlM receive []

/-- The bytes of NAL units that a payload carries. -/
def carried (payloadData : List UInt8) : List UInt8 :=
  match parse payloadData with
  | none => []
  | some parsed =>
    if parsed.stapA then ((splitStapA parsed.payload).getD []).flatten
    else parsed.payload

/-- The first byte of some NAL unit is in this payload. -/
def StartsNalUnit (payloads nalUnits : List (List UInt8)) (i : ℕ) : Prop :=
  ∃ k < nalUnits.length,
    ((payloads.take i).flatMap carried).length ≤
        (nalUnits.take k).flatten.length ∧
      (nalUnits.take k).flatten.length <
        ((payloads.take (i + 1)).flatMap carried).length

end

end WebrtcWinXp.H264
