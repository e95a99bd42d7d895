import WebrtcWinXp.Fec.Decoder
import WebrtcWinXp.Support.Traced

/-!
# What decoding reads

`DecodeFEC` with everything it reads in FEC packets, the ranges it copies their
payloads to, and the packets it recovers.
-/

namespace WebrtcWinXp.Fec

open Support

/-! ## The decoder -/

/-- Bytes of a FEC packet that are read, bytes of a new packet that are written
by the copy of a payload, and a recovered packet with its length field. -/
inductive Event where
  | read (pkt : Packet) (a : Access)
  | copy (a : Access)
  | recover (lengthField : UInt16) (packet : RecoveredPacket)

def Packet.longMask (pkt : Packet) : Bool := bit (pkt.data 0) 6

/-- The announced length of the payload of a FEC packet. -/
def Packet.announcedLength (pkt : Packet) : ℕ :=
  (bufferToUWord16 pkt.data 10).toNat

def Packet.payloadStart (pkt : Packet) : ℕ :=
  kFecHeaderSize + ulpHeaderSize pkt.longMask

/-- The bytes `length_recovery`, when all known packets are combined. -/
def lengthRecovery (fecPacket : FecPacket) : UInt16 :=
  bufferToUWord16 (fecPacket.protectedPktList.foldl recoverStep
    (initRecovery fecPacket, 0)).1.lengthRecovery 0

/-- Reads are inside the received bytes of a FEC packet, the copy is inside the
buffer, and the length of a recovered packet is its field and the header. -/
def Event.Safe : Event → Prop
  | .read pkt a => a.offset + a.length ≤ pkt.length
  | .copy a => a.offset + a.length ≤ IP_PACKET_SIZE
  | .recover lengthField packet =>
    kRtpHeaderSize ≤ packet.pkt.length ∧
      packet.pkt.length ≤ IP_PACKET_SIZE ∧
      packet.pkt.length = lengthField.toNat + kRtpHeaderSize

instance : DecidablePred Event.Safe
  | .read _ _ => inferInstanceAs (Decidable (_ ≤ _))
  | .copy _ => inferInstanceAs (Decidable (_ ≤ _))
  | .recover _ _ => inferInstanceAs (Decidable (_ ∧ _ ∧ _))

/-- The length field of a FEC packet, combined with the payload lengths of the
known packets that it protects. -/
def missingPayloadLength (fecPacket : FecPacket) : UInt16 :=
  (fecPacket.protectedPktList.filterMap ProtectedPacket.pkt).foldl
    (fun length pkt => length ^^^ mediaPayloadLength pkt)
    (bufferToUWord16 fecPacket.pkt.data 8)

/-- The announced payload was received and fits behind the header, and the
missing packet is not too long. -/
structure Recoverable (fecPacket : FecPacket) : Prop where
  received : fecPacket.pkt.payloadStart + fecPacket.pkt.announcedLength ≤
    fecPacket.pkt.length
  fits : kRtpHeaderSize + fecPacket.pkt.announcedLength ≤ IP_PACKET_SIZE
  short : kRtpHeaderSize + (missingPayloadLength fecPacket).toNat ≤
    IP_PACKET_SIZE

end WebrtcWinXp.Fec
