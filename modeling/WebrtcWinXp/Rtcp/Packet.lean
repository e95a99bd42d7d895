import Mathlib.Data.UInt

/-!
# RTCP packets

The contents that `RTCPParserV2` gives to its caller, and the common header of
the blocks of a compound packet.
-/

namespace WebrtcWinXp.Rtcp

/-- The bytes between `_ptrRTCPDataBegin` and `_ptrRTCPDataEnd`. -/
structure Buffer where
  data : ℕ → UInt8
  size : ℕ

def Buffer.ofList (l : List UInt8) : Buffer where
  data i := l.getD i 0
  size := l.length

namespace Buffer

def u16 (b : Buffer) (i : ℕ) : UInt16 :=
  ((b.data i).toUInt16 <<< 8) + (b.data (i + 1)).toUInt16

def u24 (b : Buffer) (i : ℕ) : UInt32 :=
  ((b.data i).toUInt32 <<< 16) + ((b.data (i + 1)).toUInt32 <<< 8) +
    (b.data (i + 2)).toUInt32

def u32 (b : Buffer) (i : ℕ) : UInt32 :=
  ((b.data i).toUInt32 <<< 24) + ((b.data (i + 1)).toUInt32 <<< 16) +
    ((b.data (i + 2)).toUInt32 <<< 8) + (b.data (i + 3)).toUInt32

/-- The bytes that `memcpy` takes. -/
def bytes (b : Buffer) (i n : ℕ) : List UInt8 :=
  (List.range n).map fun j => b.data (i + j)

end Buffer

def RTCP_RPSI_DATA_SIZE : ℕ := 30

def kRtcpAppCode_DATA_SIZE : ℕ := 32 * 4

def PT_IJ : UInt8 := 195
def PT_SR : UInt8 := 200
def PT_RR : UInt8 := 201
def PT_SDES : UInt8 := 202
def PT_BYE : UInt8 := 203
def PT_APP : UInt8 := 204
def PT_RTPFB : UInt8 := 205
def PT_PSFB : UInt8 := 206
def PT_XR : UInt8 := 207

def kBtReceiverReferenceTime : UInt8 := 4
def kBtDlrr : UInt8 := 5
def kBtVoipMetric : UInt8 := 7

/-- `RTCPPacketTypes`. -/
inductive PacketType where
  | kRtcpNotValidCode
  | kRtcpRrCode
  | kRtcpSrCode
  | kRtcpReportBlockItemCode
  | kRtcpSdesCode
  | kRtcpSdesChunkCode
  | kRtcpByeCode
  | kRtcpExtendedIjCode
  | kRtcpExtendedIjItemCode
  | kRtcpRtpfbNackCode
  | kRtcpRtpfbNackItemCode
  | kRtcpPsfbPliCode
  | kRtcpPsfbRpsiCode
  | kRtcpPsfbSliCode
  | kRtcpPsfbSliItemCode
  | kRtcpPsfbAppCode
  | kRtcpPsfbRembCode
  | kRtcpPsfbRembItemCode
  | kRtcpRtpfbTmmbrCode
  | kRtcpRtpfbTmmbrItemCode
  | kRtcpRtpfbTmmbnCode
  | kRtcpRtpfbTmmbnItemCode
  | kRtcpPsfbFirCode
  | kRtcpPsfbFirItemCode
  | kRtcpRtpfbSrReqCode
  | kRtcpXrHeaderCode
  | kRtcpXrReceiverReferenceTimeCode
  | kRtcpXrDlrrReportBlockCode
  | kRtcpXrDlrrReportBlockItemCode
  | kRtcpXrVoipMetricCode
  | kRtcpAppCode
  | kRtcpAppItemCode
deriving DecidableEq

/-! ## Contents -/

structure SenderReport where
  senderSsrc : UInt32
  numberOfReportBlocks : UInt8
  ntpMostSignificant : UInt32
  ntpLeastSignificant : UInt32
  rtpTimestamp : UInt32
  senderPacketCount : UInt32
  senderOctetCount : UInt32
deriving DecidableEq

structure ReportBlockItem where
  ssrc : UInt32
  fractionLost : UInt8
  cumulativeNumOfPacketsLost : UInt32
  extendedHighestSequenceNumber : UInt32
  jitter : UInt32
  lastSr : UInt32
  delayLastSr : UInt32
deriving DecidableEq

structure Rpsi where
  senderSsrc : UInt32
  mediaSsrc : UInt32
  payloadType : UInt8
  numberOfValidBits : UInt16
  nativeBitString : List UInt8
deriving DecidableEq

structure App where
  subType : UInt8
  name : UInt32
  data : List UInt8
  size : UInt16
deriving DecidableEq

structure XrVoipMetricItem where
  ssrc : UInt32
  lossRate : UInt8
  discardRate : UInt8
  burstDensity : UInt8
  gapDensity : UInt8
  burstDuration : UInt16
  gapDuration : UInt16
  roundTripDelay : UInt16
  endSystemDelay : UInt16
  signalLevel : UInt8
  noiseLevel : UInt8
  rerl : UInt8
  gmin : UInt8
  rfactor : UInt8
  extRfactor : UInt8
  mosLq : UInt8
  mosCq : UInt8
  rxConfig : UInt8
  jbNominal : UInt16
  jbMax : UInt16
  jbAbsMax : UInt16
deriving DecidableEq

/-- The member of the union `RTCPPacket` that was written last.  A character
string stands without its terminating zero. -/
inductive Packet where
  | empty
  | rr (senderSsrc : UInt32) (numberOfReportBlocks : UInt8)
  | sr (report : SenderReport)
  | reportBlockItem (item : ReportBlockItem)
  | cName (senderSsrc : UInt32) (name : List UInt8)
  | bye (senderSsrc : UInt32)
  | extendedJitterReportItem (jitter : UInt32)
  | nack (senderSsrc mediaSsrc : UInt32)
  | nackItem (packetId bitMask : UInt16)
  | pli (senderSsrc mediaSsrc : UInt32)
  | sli (senderSsrc mediaSsrc : UInt32)
  | sliItem (firstMb numberOfMb : UInt16) (pictureId : UInt8)
  | rpsi (item : Rpsi)
  | psfbApp (senderSsrc mediaSsrc : UInt32)
  | rembItem (bitRate : UInt32) (numberOfSsrcs : UInt8) (ssrcs : List UInt32)
  | tmmbr (senderSsrc mediaSsrc : UInt32)
  | tmmbrItem (ssrc maxTotalMediaBitRate measuredOverhead : UInt32)
  | tmmbn (senderSsrc mediaSsrc : UInt32)
  | tmmbnItem (ssrc maxTotalMediaBitRate measuredOverhead : UInt32)
  | fir (senderSsrc mediaSsrc : UInt32)
  | firItem (ssrc : UInt32) (commandSequenceNumber : UInt8)
  | xr (originatorSsrc : UInt32)
  | xrReceiverReferenceTimeItem (ntpMostSignificant ntpLeastSignificant : UInt32)
  | xrDlrrReportBlockItem (ssrc lastRr delayLastRr : UInt32)
  | xrVoipMetricItem (item : XrVoipMetricItem)
  | app (item : App)
deriving DecidableEq

/-- The member `RPSI`, of which `ParseRPSIItem` writes a part. -/
def Packet.toRpsi : Packet → Rpsi
  | .rpsi item => item
  | _ => ⟨0, 0, 0, 0, []⟩

/-- The member `APP`, of which `ParseAPPItem` writes a part. -/
def Packet.toApp : Packet → App
  | .app item => item
  | _ => ⟨0, 0, [], 0⟩

/-- The member `CName`, to which `ParseSDESChunk` adds the SSRC. -/
def Packet.withCNameSsrc (senderSsrc : UInt32) : Packet → Packet
  | .cName _ name => .cName senderSsrc name
  | packet => packet

/-- `RTCPCommonHeader`. -/
structure CommonHeader where
  v : UInt8
  p : Bool
  ic : UInt8
  pt : UInt8
  lengthInOctets : UInt16
deriving DecidableEq

/-- The header that the bytes at a position stand for.  The length is kept in 16
bits. -/
def Buffer.commonHeader (b : Buffer) (i : ℕ) : CommonHeader where
  v := b.data i >>> 6
  p := b.data i &&& 0x20 ≠ 0
  ic := b.data i &&& 0x1f
  pt := b.data (i + 1)
  lengthInOctets := (b.u16 (i + 2) + 1) * 4

/-- `RTCPParseCommonHeader`. -/
def parseCommonHeader (b : Buffer) (i : ℕ) : Option CommonHeader :=
  if b.size < i + 4 then none
  else
    let header := b.commonHeader i
    if header.lengthInOctets = 0 then none
    else if header.v ≠ 2 then none
    else some header

end WebrtcWinXp.Rtcp
