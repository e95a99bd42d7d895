import WebrtcWinXp.Rtp.HeaderParser

/-!
# Packets of NetEq
-/

namespace WebrtcWinXp.NetEq

inductive NetEqDecoder where
  | kDecoderPCMu
  | kDecoderPCMa
  | kDecoderPCMu_2ch
  | kDecoderPCMa_2ch
  | kDecoderILBC
  | kDecoderISAC
  | kDecoderISACswb
  | kDecoderISACfb
  | kDecoderPCM16B
  | kDecoderPCM16Bwb
  | kDecoderPCM16Bswb32kHz
  | kDecoderPCM16Bswb48kHz
  | kDecoderPCM16B_2ch
  | kDecoderPCM16Bwb_2ch
  | kDecoderPCM16Bswb32kHz_2ch
  | kDecoderPCM16Bswb48kHz_2ch
  | kDecoderPCM16B_5ch
  | kDecoderG722
  | kDecoderG722_2ch
  | kDecoderRED
  | kDecoderAVT
  | kDecoderCNGnb
  | kDecoderCNGwb
  | kDecoderCNGswb32kHz
  | kDecoderCNGswb48kHz
  | kDecoderArbitrary
  | kDecoderOpus
  | kDecoderOpus_2ch
  | kDecoderCELT_32
  | kDecoderCELT_32_2ch
  deriving DecidableEq, Repr

/-- The codec types of the registered payload types. -/
def DecoderDatabase := UInt8 → Option NetEqDecoder

def DecoderDatabase.getDecoderInfo (database : DecoderDatabase)
    (rtpPayloadType : UInt8) : Option NetEqDecoder :=
  database rtpPayloadType

/-- A packet that has its payload. -/
structure Packet where
  header : Rtp.RTPHeader := {}
  payload : List UInt8 := []
  primary : Bool := true
  waitingTime : ℤ := 0
  syncPacket : Bool := false
  deriving DecidableEq

def Packet.payloadLength (p : Packet) : ℕ := p.payload.length

end WebrtcWinXp.NetEq
