import WebrtcWinXp.Rtp.HeaderParser

/-!
# Headers written by the sender

`RTPSender::CreateRTPHeader` with the blocks of the registered extensions, and
the functions that update one of these blocks in a packet.  The bytes a builder
writes and the length it returns are kept apart, as in the source.
-/

namespace WebrtcWinXp.Rtp

open Support

def kRtpMarkerBitMask : UInt8 := 0x80

structure RTPSender where
  rtpHeaderExtensionMap : RtpHeaderExtensionMap
  transmissionTimeOffset : ℤ
  absoluteSendTime : ℕ
  payloadTypeRtx : ℤ := -1
  sequenceNumberRtx : UInt16 := 0
  ssrcRtx : UInt32 := 0

/-- The arguments of `CreateRTPHeader`. -/
structure HeaderFields where
  payloadType : UInt8
  ssrc : UInt32
  markerBit : Bool
  timestamp : UInt32
  sequenceNumber : UInt16
  csrcs : List UInt32

/-- `AssignUWord24ToBuffer`, with the conversion of its argument to 32 bits. -/
def assignUWord24 (value : ℤ) : List UInt8 := toBE 3 (value % 2 ^ 32).toNat

def blockByte (id len : ℕ) : UInt8 := UInt8.ofNat ((id <<< 4) + len)

namespace RTPSender

variable (s : RTPSender)

/-! ## Extension blocks -/

def buildTransmissionTimeOffsetExtension : List UInt8 × ℕ :=
  match s.rtpHeaderExtensionMap.getId .kRtpExtensionTransmissionTimeOffset with
  | none => ([], 0)
  | some id =>
    (blockByte id 2 :: assignUWord24 s.transmissionTimeOffset,
      kTransmissionTimeOffsetLength)

/-- Voice at level 0, with two bytes of padding. -/
def buildAudioLevelExtension : List UInt8 × ℕ :=
  match s.rtpHeaderExtensionMap.getId .kRtpExtensionAudioLevel with
  | none => ([], 0)
  | some id =>
    ([blockByte id 0, UInt8.ofNat ((1 <<< 7) + 0), 0, 0], kAudioLevelLength)

def buildAbsoluteSendTimeExtension : List UInt8 × ℕ :=
  match s.rtpHeaderExtensionMap.getId .kRtpExtensionAbsoluteSendTime with
  | none => ([], 0)
  | some id =>
    (blockByte id 2 :: assignUWord24 s.absoluteSendTime,
      kAbsoluteSendTimeLength)

def buildExtension : RTPExtensionType → List UInt8 × ℕ
  | .kRtpExtensionTransmissionTimeOffset =>
    s.buildTransmissionTimeOffsetExtension
  | .kRtpExtensionAudioLevel => s.buildAudioLevelExtension
  | .kRtpExtensionAbsoluteSendTime => s.buildAbsoluteSendTimeExtension

/-- One round of the loop in `BuildRTPHeaderExtension`: the block of an
extension behind the ones before, with `total_block_length`. -/
def buildStep :
    Option RTPExtensionType × List UInt8 × ℕ →
      Option (Option RTPExtensionType × List UInt8 × ℕ)
  | (none, _) => none
  | (some type, data, totalBlockLength) =>
    some (s.rtpHeaderExtensionMap.next type,
      data ++ (s.buildExtension type).1,
      totalBlockLength + (s.buildExtension type).2)

/-- The header extension and its length.  The loop visits every id at most
once when no extension has two; it need not end otherwise. -/
def buildRTPHeaderExtension : Option (List UInt8 × ℕ) :=
  if s.rtpHeaderExtensionMap.size = 0 then some ([], 0)
  else
    (loop s.buildStep (s.rtpHeaderExtensionMap.size + 1)
      (s.rtpHeaderExtensionMap.first, [], 0)).map
      fun (_, data, totalBlockLength) =>
        if totalBlockLength = 0 then ([], 0)
        else
          (toBE 2 kRtpOneByteHeaderExtensionId ++
            (toBE 2 (totalBlockLength / 4) ++ data),
            kRtpOneByteHeaderLength + totalBlockLength)

/-- The first byte, with the number of CSRCs and the extension bit. -/
def firstByte (numCsrcs extensionLength : ℕ) : UInt8 :=
  let byte : UInt8 := 0x80
  let byte :=
    if numCsrcs > 0 then (byte &&& 0xf0) ||| UInt8.ofNat numCsrcs else byte
  if extensionLength > 0 then byte ||| 0x10 else byte

def secondByte (payloadType : UInt8) (markerBit : Bool) : UInt8 :=
  if markerBit then payloadType ||| kRtpMarkerBitMask else payloadType

/-- `CreateRTPHeader`: the bytes and the returned length; nothing for too many
CSRCs. -/
def createRTPHeader (f : HeaderFields) : Option (List UInt8 × ℕ) :=
  if f.csrcs.length > kRtpCsrcSize then none
  else
    s.buildRTPHeaderExtension.map fun (extension, len) =>
      (firstByte f.csrcs.length len ::
        secondByte f.payloadType f.markerBit ::
          (toBE 2 f.sequenceNumber.toNat ++ (toBE 4 f.timestamp.toNat ++
            (toBE 4 f.ssrc.toNat ++
              (f.csrcs.flatMap (fun csrc => toBE 4 csrc.toNat) ++
                extension)))),
        12 + 4 * f.csrcs.length + len)

/-- The block of an extension in a packet, as the update functions look for
it: its position, if everything they check is there. -/
def findBlock (type : RTPExtensionType) (len : ℕ) (packet : List UInt8)
    (header : RTPHeader) : Option ℕ :=
  match s.rtpHeaderExtensionMap.getId type,
    s.rtpHeaderExtensionMap.getLengthUntilBlockStartInBytes type with
  | some id, some extensionBlockPos =>
    let numCSRCs := header.numCSRCs.toNat
    let blockPos := 12 + numCSRCs + extensionBlockPos
    if packet.length < blockPos + type.length ∨
        header.headerLength.toNat < blockPos + type.length then none
    else if ¬(packet.getD (12 + numCSRCs) 0 = 0xBE ∧
        packet.getD (12 + numCSRCs + 1) 0 = 0xDE) then none
    else if packet.getD blockPos 0 ≠ blockByte id len then none
    else some blockPos
  | _, _ => none

/-- What the three update functions have in common: `data` is written behind
the first byte of the block. -/
def updateBlock (type : RTPExtensionType) (len : ℕ) (data packet : List UInt8)
    (header : RTPHeader) : Bool × List UInt8 :=
  match s.findBlock type len packet header with
  | none => (false, packet)
  | some blockPos => (true, overwrite packet (blockPos + 1) data)

/-- The offset is converted to a 90 kHz timestamp. -/
def updateTransmissionTimeOffset (packet : List UInt8) (header : RTPHeader)
    (timeDiffMs : ℤ) : List UInt8 :=
  (s.updateBlock .kRtpExtensionTransmissionTimeOffset 2
    (assignUWord24 (timeDiffMs * 90)) packet header).2

def updateAudioLevel (packet : List UInt8) (header : RTPHeader)
    (isVoiced : Bool) (dBov : UInt8) : Bool × List UInt8 :=
  s.updateBlock .kRtpExtensionAudioLevel 0
    [(if isVoiced then 0x80 else 0x00) + (dBov &&& 0x7f)] packet header

/-- Milliseconds are converted to seconds with an 18-bit fraction. -/
def updateAbsoluteSendTime (packet : List UInt8) (header : RTPHeader)
    (nowMs : ℕ) : List UInt8 :=
  (s.updateBlock .kRtpExtensionAbsoluteSendTime 2
    (assignUWord24 (((nowMs <<< 18) / 1000) &&& 0x00ffffff : ℕ)) packet
    header).2

end RTPSender

end WebrtcWinXp.Rtp
