import WebrtcWinXp.Fec.Encoder
import WebrtcWinXp.Support.Traced

/-!
# The producer of FEC packets

`ProducerFec` collects the media packets of frames and passes them to
`GenerateFEC`, and the video sender fetches the FEC packets after every media
packet.  Its calls of `GenerateFEC` and its divisions are recorded.
-/

namespace WebrtcWinXp.Fec

open Support

def kRtpMarkerBitMask : UInt8 := 0x80

def kMaxExcessOverhead : ℤ := 50

def kMinimumMediaPackets : ℕ := 4

def kHighProtectionThreshold : UInt8 := 80

/-- The rate is from 0 to 255, by an assertion.  The number of first-partition
packets below is not negative, by another one. -/
structure FecProtectionParams where
  fecRate : UInt8
  useUepProtection : Bool
  maxFecFrames : ℤ
  fecMaskType : FecMaskType

structure ProducerFec where
  mediaPacketsFec : List Packet
  fecPackets : List Packet
  numFrames : ℕ
  incompleteFrame : Bool
  numFirstPartition : ℕ
  minimumMediaPacketsFec : ℕ
  params : FecProtectionParams
  newParams : FecProtectionParams

/-- The arguments of a call of `GenerateFEC`, with the list that it appends
to. -/
structure GenerateCall where
  mediaPacketList : List Packet
  protectionFactor : UInt8
  numImportantPackets : ℕ
  useUnequalProtection : Bool
  fecMaskType : FecMaskType
  fecPacketList : List Packet

inductive ProducerEvent where
  | generate (call : GenerateCall)
  | divide (divisor : ℕ)

def ProducerEvent.call? : ProducerEvent → Option GenerateCall
  | .generate call => some call
  | .divide _ => none

def ProducerEvent.divisor? : ProducerEvent → Option ℕ
  | .generate _ => none
  | .divide divisor => some divisor

/-- The last packet of a frame has the marker bit. -/
def Packet.marker (p : Packet) : Bool := p.data 1 &&& kRtpMarkerBitMask != 0

/-- `GenerateFEC`: the result, and the list with what was appended. -/
def GenerateCall.run (undefinedShift : UndefinedShift) (table : MaskTable)
    (call : GenerateCall) : ℤ × List Packet :=
  match call.mediaPacketList with
  | [] => (-1, call.fecPacketList)
  | first :: rest =>
    match generateFec undefinedShift table first rest call.protectionFactor
      call.numImportantPackets call.useUnequalProtection call.fecMaskType with
    | none => (-1, call.fecPacketList)
    | some generated => (0, call.fecPacketList ++ generated.fecPackets)

namespace ProducerFec

def new : ProducerFec where
  mediaPacketsFec := []
  fecPackets := []
  numFrames := 0
  incompleteFrame := false
  numFirstPartition := 0
  minimumMediaPacketsFec := 1
  params := ⟨0, false, 0, .kFecMaskRandom⟩
  newParams := ⟨0, false, 0, .kFecMaskRandom⟩

def setFecParameters (params : FecProtectionParams) (numFirstPartition : ℕ)
    (s : ProducerFec) : ProducerFec :=
  { s with
    newParams := params
    numFirstPartition :=
      if numFirstPartition > kMaxMediaPackets then kMaxMediaPackets
      else numFirstPartition
    minimumMediaPacketsFec :=
      if params.fecRate > kHighProtectionThreshold then kMinimumMediaPackets
      else 1 }

/-! ## Adding packets -/

section Add

/-- `Overhead`, in Q8. -/
def overhead (s : ProducerFec) : Traced ProducerEvent ℤ :=
  let numFecPackets :=
    getNumberOfFecPackets s.mediaPacketsFec.length s.params.fecRate
  .touch (.divide s.mediaPacketsFec.length)
    ↑(numFecPackets * 256 / s.mediaPacketsFec.length)

def excessOverheadBelowMax (s : ProducerFec) : Traced ProducerEvent Bool := do
  let overhead ← s.overhead
  return overhead - s.params.fecRate.toNat < kMaxExcessOverhead

/-- The average number of packets in a frame is compared with 2. -/
def minimumMediaPacketsReached (s : ProducerFec) :
    Traced ProducerEvent Bool :=
  .touch (.divide s.numFrames)
    (if s.mediaPacketsFec.length < 2 * s.numFrames then
      s.minimumMediaPacketsFec ≤ s.mediaPacketsFec.length
    else s.minimumMediaPacketsFec + 1 ≤ s.mediaPacketsFec.length)

def produceNow (s : ProducerFec) : Traced ProducerEvent Bool :=
  if s.incompleteFrame then pure false
  else if s.numFrames = s.params.maxFecFrames then pure true
  else do
    if ← s.excessOverheadBelowMax then s.minimumMediaPacketsReached
    else pure false

variable (undefinedShift : UndefinedShift) (table : MaskTable)

def generateCall (s : ProducerFec) : GenerateCall where
  mediaPacketList := s.mediaPacketsFec
  protectionFactor := s.params.fecRate
  numImportantPackets := s.numFirstPartition
  useUnequalProtection := s.params.useUepProtection
  fecMaskType := s.params.fecMaskType
  fecPacketList := s.fecPackets

/-- The state with a further packet; only `kMaxMediaPackets` are kept. -/
def addPacket (p : Packet) (s : ProducerFec) : ProducerFec :=
  { s with
    params := if s.mediaPacketsFec.isEmpty then s.newParams else s.params
    mediaPacketsFec :=
      if s.mediaPacketsFec.length < kMaxMediaPackets then
        s.mediaPacketsFec ++ [p]
      else s.mediaPacketsFec
    numFrames := if p.marker then s.numFrames + 1 else s.numFrames
    incompleteFrame := !p.marker }

/-- The state after a call; without FEC packets the media packets are
deleted. -/
def keepFecPackets (fecPackets : List Packet) (s : ProducerFec) :
    ProducerFec :=
  if fecPackets.isEmpty then
    { s with
      fecPackets := []
      numFrames := 0
      mediaPacketsFec := [] }
  else { s with fecPackets := fecPackets }

def addRtpPacketAndGenerateFec (p : Packet) (s : ProducerFec) :
    Traced ProducerEvent (ℤ × ProducerFec) := do
  let s := s.addPacket p
  if ← s.produceNow then
    let r ← Traced.touch (.generate s.generateCall)
      (s.generateCall.run undefinedShift table)
    return (r.1, s.keepFecPackets r.2)
  else return (0, s)

end Add

def fecAvailable (s : ProducerFec) : Bool := 0 < s.fecPackets.length

/-- `GetFecPacket`: the FEC packet, and the media packet whose header is used
for it. -/
def getFecPacket (s : ProducerFec) :
    Option (Packet × Option Packet) × ProducerFec :=
  match s.fecPackets with
  | [] => (none, s)
  | packetToSend :: rest =>
    (some (packetToSend, s.mediaPacketsFec.getLast?),
      if rest.isEmpty then
        { s with
          fecPackets := []
          mediaPacketsFec := []
          numFrames := 0 }
      else { s with fecPackets := rest })

/-- The loop of the sender over the FEC packets. -/
def fetchFecPackets (s : ProducerFec) : ProducerFec :=
  finish (fun s => if s.fecAvailable then some s.getFecPacket.2 else none)
    (fun s => s.fecPackets.length) s

end ProducerFec

/-- What `RTPSenderVideo` does with the producer: for a frame it sets the
parameters, and for each packet it adds the packet, if it is to be protected,
and fetches the FEC packets. -/
inductive SenderEvent where
  | setFecParameters (params : FecProtectionParams) (numFirstPartition : ℕ)
  | sendVideoPacket (p : Packet) (protect : Bool)

section Sender

variable (undefinedShift : UndefinedShift) (table : MaskTable)

/-- `SendVideoPacket` returns when adding the packet fails. -/
def sendVideoPacket (p : Packet) (protect : Bool) (s : ProducerFec) :
    Traced ProducerEvent ProducerFec := do
  if protect then
    let r ← s.addRtpPacketAndGenerateFec undefinedShift table p
    if r.1 ≠ 0 then return r.2
    return r.2.fetchFecPackets
  else return s.fetchFecPackets

/-- The producer, the packets that were added to it, and what was recorded. -/
structure Sender where
  producer : ProducerFec
  added : List Packet
  log : List ProducerEvent

def Sender.new : Sender := ⟨.new, [], []⟩

def Sender.step (s : Sender) : SenderEvent → Sender
  | .setFecParameters params numFirstPartition =>
    { s with
      producer := s.producer.setFecParameters params numFirstPartition }
  | .sendVideoPacket p protect =>
    let r := sendVideoPacket undefinedShift table p protect s.producer
    { producer := r.value
      added := if protect then s.added ++ [p] else s.added
      log := s.log ++ r.trace }

def Sender.run (events : List SenderEvent) : Sender :=
  events.foldl (Sender.step undefinedShift table) .new

end Sender

/-- The recorded calls of `GenerateFEC`. -/
def Sender.calls (s : Sender) : List GenerateCall :=
  s.log.filterMap ProducerEvent.call?

def Sender.divisors (s : Sender) : List ℕ :=
  s.log.filterMap ProducerEvent.divisor?

end WebrtcWinXp.Fec
