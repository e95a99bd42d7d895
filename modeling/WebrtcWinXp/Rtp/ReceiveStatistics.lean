import WebrtcWinXp.Fec.Packet
import WebrtcWinXp.Rtp.HeaderParser

/-!
# Receive statistics

`StreamStatisticianImpl`: the counters of a received stream and the statistics
that a receiver report takes from them.  The bitrate is kept elsewhere.
-/

namespace WebrtcWinXp.Rtp

open Fec (isNewerSequenceNumber)

def kDefaultMaxReorderingThreshold : ℤ := 50

structure StreamDataCounters where
  bytes : UInt32 := 0
  headerBytes : UInt32 := 0
  paddingBytes : UInt32 := 0
  packets : UInt32 := 0
  retransmittedPackets : UInt32 := 0

structure RtcpStatistics where
  fractionLost : UInt8 := 0
  cumulativeLost : UInt32 := 0
  extendedMaxSequenceNumber : UInt32 := 0
  jitter : UInt32 := 0
  deriving DecidableEq

structure StreamStatistician where
  ssrc : UInt32 := 0
  maxReorderingThreshold : ℤ := kDefaultMaxReorderingThreshold
  jitterQ4 : UInt32 := 0
  cumulativeLoss : UInt32 := 0
  jitterQ4TransmissionTimeOffset : UInt32 := 0
  lastReceiveTimeMs : ℤ := 0
  lastReceiveTimeSecs : UInt32 := 0
  lastReceiveTimeFrac : UInt32 := 0
  lastReceivedTimestamp : UInt32 := 0
  lastReceivedTransmissionTimeOffset : ℤ := 0
  receivedSeqFirst : UInt16 := 0
  receivedSeqMax : UInt16 := 0
  receivedSeqWraps : UInt16 := 0
  receivedPacketOverhead : UInt16 := 12
  receiveCounters : StreamDataCounters := {}
  lastReportInorderPackets : UInt32 := 0
  lastReportOldPackets : UInt32 := 0
  lastReportSeqMax : UInt16 := 0
  lastReportedStatistics : RtcpStatistics := {}

/-- The arguments of `IncomingPacket`, and what the clock says meanwhile. -/
structure Arrival where
  header : RTPHeader
  payloadTypeFrequency : ℤ := 90000
  bytes : ℕ := 0
  retransmitted : Bool := false
  receiveTimeSecs : UInt32 := 0
  receiveTimeFrac : UInt32 := 0
  receiveTimeMs : ℤ := 0

namespace StreamStatistician

variable (s : StreamStatistician)

/-- The first packet is always in order, and so is one that is much older than
the newest. -/
def inOrderPacketInternal (sequenceNumber : UInt16) : Bool :=
  if s.lastReceiveTimeMs = 0 then true
  else if isNewerSequenceNumber sequenceNumber s.receivedSeqMax then true
  else !isNewerSequenceNumber sequenceNumber
    (UInt16.ofInt (s.receivedSeqMax.toNat - s.maxReorderingThreshold))

/-- One step of the jitter filter, in Q4; crazy jumps are left out. -/
def filterJitter (jitterQ4 : UInt32) (timeDiffSamples : Int32) : UInt32 :=
  let timeDiffSamples := timeDiffSamples.abs
  if timeDiffSamples < 450000 then
    let jitterDiffQ4 := ((timeDiffSamples <<< 4).toUInt32 - jitterQ4).toInt32
    jitterQ4 + ((jitterDiffQ4 + 8) >>> 4).toUInt32
  else jitterQ4

section Clock

-- `ConvertNTPTimeToRTP`, which computes with floating point numbers
variable (convertNTPTimeToRTP : UInt32 → UInt32 → ℤ → UInt32)

def updateJitter (a : Arrival) : StreamStatistician :=
  let receiveTimeRtp := convertNTPTimeToRTP a.receiveTimeSecs
    a.receiveTimeFrac a.payloadTypeFrequency
  let lastReceiveTimeRtp := convertNTPTimeToRTP s.lastReceiveTimeSecs
    s.lastReceiveTimeFrac a.payloadTypeFrequency
  let offset := UInt32.ofInt a.header.extension.transmissionTimeOffset
  let lastOffset := UInt32.ofInt s.lastReceivedTransmissionTimeOffset
  { s with
    jitterQ4 := filterJitter s.jitterQ4
      ((receiveTimeRtp - lastReceiveTimeRtp) -
        (a.header.timestamp - s.lastReceivedTimestamp)).toInt32
    jitterQ4TransmissionTimeOffset :=
      filterJitter s.jitterQ4TransmissionTimeOffset
        ((receiveTimeRtp - lastReceiveTimeRtp) -
          ((a.header.timestamp + offset) -
            (s.lastReceivedTimestamp + lastOffset))).toInt32 }

def countPacket (inOrder : Bool) (a : Arrival) : StreamDataCounters :=
  let c := s.receiveCounters
  let padding := a.header.paddingLength.toUInt32
  let header := a.header.headerLength.toUInt32
  { bytes := c.bytes + (UInt32.ofNat a.bytes - (padding + header))
    headerBytes := c.headerBytes + header
    paddingBytes := c.paddingBytes + padding
    packets := c.packets + 1
    retransmittedPackets :=
      if !inOrder && a.retransmitted then c.retransmittedPackets + 1
      else c.retransmittedPackets }

/-- What `UpdateCounters` does for a packet in order, after the counters. -/
def updateInOrder (a : Arrival) : StreamStatistician :=
  let seq := a.header.sequenceNumber
  let c := s.receiveCounters
  let s :=
    if c.packets > 1 ∧ s.receivedSeqMax > seq then
      { s with receivedSeqWraps := s.receivedSeqWraps + 1 }
    else s
  let s := { s with receivedSeqMax := seq }
  let s :=
    if a.header.timestamp ≠ s.lastReceivedTimestamp ∧
        c.packets - c.retransmittedPackets > 1 then
      s.updateJitter convertNTPTimeToRTP a
    else s
  { s with
    lastReceivedTimestamp := a.header.timestamp
    lastReceiveTimeSecs := a.receiveTimeSecs
    lastReceiveTimeFrac := a.receiveTimeFrac
    lastReceiveTimeMs := a.receiveTimeMs }

def updateCounters (a : Arrival) : StreamStatistician :=
  let inOrder := s.inOrderPacketInternal a.header.sequenceNumber
  let counters := s.countPacket inOrder a
  let s :=
    { s with
      ssrc := a.header.ssrc
      receiveCounters := counters
      receivedSeqFirst :=
        if counters.packets = 1 then a.header.sequenceNumber
        else s.receivedSeqFirst }
  let s := if inOrder then s.updateInOrder convertNTPTimeToRTP a else s
  let packetOh := a.header.headerLength + a.header.paddingLength.toUInt16
  { s with
    receivedPacketOverhead := UInt16.ofNat
      ((15 * s.receivedPacketOverhead.toNat + packetOh.toNat) >>> 4) }

end Clock

/-- The newest sequence number at the last report; the one before the first
packet when there is none. -/
def reportedSeqMax : UInt16 :=
  if s.lastReportInorderPackets = 0 then s.receivedSeqFirst - 1
  else s.lastReportSeqMax

def expSinceLast : UInt16 :=
  if s.reportedSeqMax > s.receivedSeqMax then 0
  else s.receivedSeqMax - s.reportedSeqMax

/-- The packets received since the last report, retransmissions included. -/
def recSinceLast : UInt32 :=
  let c := s.receiveCounters
  (c.packets - c.retransmittedPackets) - s.lastReportInorderPackets +
    (c.retransmittedPackets - s.lastReportOldPackets)

def missing : ℕ :=
  if s.expSinceLast.toNat > s.recSinceLast.toNat then
    s.expSinceLast.toNat - s.recSinceLast.toNat
  else 0

def localFractionLost : UInt8 :=
  if s.expSinceLast ≠ 0 then
    UInt8.ofNat (255 * s.missing / s.expSinceLast.toNat)
  else 0

/-- The statistics of a report and the state after it. -/
def calculateRtcpStatistics : RtcpStatistics × StreamStatistician :=
  let c := s.receiveCounters
  let cumulativeLoss := s.cumulativeLoss + UInt32.ofNat s.missing
  let stats : RtcpStatistics :=
    { fractionLost := s.localFractionLost
      cumulativeLost := cumulativeLoss
      extendedMaxSequenceNumber :=
        (s.receivedSeqWraps.toUInt32 <<< 16) + s.receivedSeqMax.toUInt32
      jitter := s.jitterQ4 >>> 4 }
  (stats,
    { s with
      cumulativeLoss := cumulativeLoss
      lastReportedStatistics := stats
      lastReportInorderPackets := c.packets - c.retransmittedPackets
      lastReportOldPackets := c.retransmittedPackets
      lastReportSeqMax := s.receivedSeqMax })

def getStatistics (reset : Bool) :
    Option RtcpStatistics × StreamStatistician :=
  if s.receivedSeqFirst = 0 ∧ s.receiveCounters.bytes = 0 then (none, s)
  else if !reset then
    if s.lastReportInorderPackets = 0 then (none, s)
    else (some s.lastReportedStatistics, s)
  else
    let r := s.calculateRtcpStatistics
    (some r.1, r.2)

end StreamStatistician

end WebrtcWinXp.Rtp
