import WebrtcWinXp.Vp8.Aggregates
import WebrtcWinXp.Vp8.Descriptor

/-!
# `RtpPacketizerVp8`, balanced

Partitions that fit in a packet are put together into packets of about the same
size, and larger ones are split into fragments of about that size.
-/

namespace WebrtcWinXp.Vp8

open Support PartitionTreeNode

def overheadOf (hdr : RTPVideoHeaderVP8) : ℕ :=
  vp8FixedPayloadDescriptorBytes + hdr.payloadDescriptorExtraLength

/-- The fields that the balanced mode uses.  The costs of fragments fit in an
`int`. -/
structure RtpPacketizerVp8 where
  hdrInfo : RTPVideoHeaderVP8
  maxPayloadLen : ℕ
  fragmentationLength : List ℕ
  costs_lt : ∀ length ∈ fragmentationLength,
    length * overheadOf hdrInfo + maxPayloadLen < intMax

structure InfoStruct where
  payloadStartPos : ℕ
  size : ℕ
  firstPartitionIx : ℕ
  firstFragment : Bool

/-- The loop of `AggregateSmallPartitions`, with the lengths that remain. -/
structure SmallPartitions where
  remaining : List ℕ
  partitionVec : List ℤ := []
  minSize : ℤ := -1
  maxSize : ℤ := -1
  numAggregatePackets : ℤ := 0

namespace SmallPartitions

/-- The sizes for `SetPriorMinMax`, when there are any. -/
def prior (s : SmallPartitions) : Option (ℕ × ℕ) :=
  if 0 ≤ s.minSize ∧ 0 ≤ s.maxSize then
    some (s.minSize.toNat, s.maxSize.toNat)
  else none

def step (maxPayloadLen overhead : ℕ) (s : SmallPartitions) :
    Option SmallPartitions :=
  match s.remaining with
  | [] => none
  | length :: rest =>
    if length < maxPayloadLen then
      let set := s.remaining.takeWhile (· < maxPayloadLen)
      let config := findOptimalConfiguration maxPayloadLen overhead
        (rootNode s.prior set)
      let sizes := calcMinMax config set s.minSize s.maxSize
      some
        { remaining := s.remaining.dropWhile (· < maxPayloadLen)
          partitionVec :=
            s.partitionVec ++ config.map (s.numAggregatePackets + ·)
          minSize := sizes.1
          maxSize := sizes.2
          numAggregatePackets :=
            s.numAggregatePackets + (config.getLastD 0 + 1) }
    else
      some
        { s with
          remaining := rest
          partitionVec := s.partitionVec ++ [-1] }

end SmallPartitions

/-- A call of `CalcNumberOfFragments`, and what it returned. -/
structure FragmentsCall where
  largePartitionSize : ℕ
  minSize : ℤ
  maxSize : ℤ
  numFragments : ℤ

/-- The loop of `GeneratePacketsBalancedAggregates`, with the decisions and the
lengths that remain. -/
structure BalancedPackets where
  remaining : List (ℤ × ℕ)
  minSize : ℤ
  maxSize : ℤ
  partIx : ℕ := 0
  totalBytesProcessed : ℕ := 0
  packets : List InfoStruct := []
  calls : List FragmentsCall := []

namespace BalancedPackets

def queuePacket (s : BalancedPackets) (packetSize : ℕ)
    (startOnNewFragment : Bool) : BalancedPackets :=
  { s with
    totalBytesProcessed := s.totalBytesProcessed + packetSize
    packets := s.packets ++
      [⟨s.totalBytesProcessed, packetSize, s.partIx, startOnNewFragment⟩] }

/-- The loop over the fragments of a large partition. -/
def splitLarge (packetBytes : ℕ) :
    ℕ → Bool → ℕ → BalancedPackets → BalancedPackets
  | 0, _, _, s => s
  | rounds + 1, first, remainingPartition, s =>
    let thisPacketBytes :=
      if packetBytes < remainingPartition then packetBytes
      else remainingPartition
    let s := s.queuePacket thisPacketBytes first
    splitLarge packetBytes rounds false
      (remainingPartition - thisPacketBytes)
      { s with
        minSize :=
          if thisPacketBytes < s.minSize then (thisPacketBytes : ℤ)
          else s.minSize
        maxSize :=
          if thisPacketBytes > s.maxSize then (thisPacketBytes : ℤ)
          else s.maxSize }

/-- One round: a large partition, or the partitions of one packet. -/
def step (maxPayloadLen overhead : ℕ) (s : BalancedPackets) :
    Option BalancedPackets :=
  match s.remaining with
  | [] => none
  | (decision, length) :: rest =>
    if decision = -1 then
      let numFragments := calcNumberOfFragments length maxPayloadLen overhead
        s.minSize s.maxSize
      let t := splitLarge (fragmentSize length numFragments.toNat)
        numFragments.toNat true length
        { s with
          calls := s.calls ++
            [⟨length, s.minSize, s.maxSize, numFragments⟩] }
      some
        { t with
          remaining := rest
          partIx := t.partIx + 1 }
    else
      let packet := packetOf decision s.remaining
      let t := s.queuePacket (packet.map Prod.snd).sum true
      some
        { t with
          remaining := s.remaining.dropWhile fun x => x.1 = decision
          partIx := t.partIx + packet.length }

end BalancedPackets

namespace RtpPacketizerVp8

variable (p : RtpPacketizerVp8)

def overhead : ℕ := overheadOf p.hdrInfo

def payloadLimit : ℕ := p.maxPayloadLen - p.overhead

def aggregateSmallPartitions : SmallPartitions :=
  finish (SmallPartitions.step p.payloadLimit p.overhead)
    (·.remaining.length) { remaining := p.fragmentationLength }

/-- `GeneratePacketsBalancedAggregates`, unless it returns -1. -/
def generatePacketsBalancedAggregates : Option BalancedPackets :=
  if p.maxPayloadLen < p.overhead + 1 then none
  else
    let small := p.aggregateSmallPartitions
    some (finish (BalancedPackets.step p.payloadLimit p.overhead)
      (·.remaining.length)
      { remaining := small.partitionVec.zip p.fragmentationLength
        minSize := small.minSize
        maxSize := small.maxSize })

end RtpPacketizerVp8

end WebrtcWinXp.Vp8
