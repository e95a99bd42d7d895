import WebrtcWinXp.Support.Ring
import Mathlib.Data.UInt

/-!
# Packets and sequence numbers

The packets that forward error correction works on, and the 16-bit fields in
them.  The bytes of a packet are a memory, of which the code owns the first
`IP_PACKET_SIZE`.
-/

namespace WebrtcWinXp.Fec

open Support

def IP_PACKET_SIZE : ℕ := 1500

def kRtpHeaderSize : ℕ := 12

def kFecHeaderSize : ℕ := 10

def kMaskSizeLBitSet : ℕ := 6

def kMaskSizeLBitClear : ℕ := 2

def kUlpHeaderSizeLBitSet : ℕ := 2 + kMaskSizeLBitSet

def kUlpHeaderSizeLBitClear : ℕ := 2 + kMaskSizeLBitClear

def kMaxMediaPackets : ℕ := 48

def kMaxFecPackets : ℕ := kMaxMediaPackets

/-- The bytes of a mask row for each value of the L bit. -/
def maskSize (lBit : Bool) : ℕ :=
  if lBit then kMaskSizeLBitSet else kMaskSizeLBitClear

def ulpHeaderSize (lBit : Bool) : ℕ :=
  if lBit then kUlpHeaderSizeLBitSet else kUlpHeaderSizeLBitClear

/-- `ForwardErrorCorrection::Packet`. -/
structure Packet where
  length : ℕ
  data : ℕ → UInt8

/-- The payload length of a media packet, as it is put into FEC packets. -/
def mediaPayloadLength (p : Packet) : UInt16 :=
  UInt16.ofNat p.length - UInt16.ofNat kRtpHeaderSize

/-- The first byte that `AssignUWord16ToBuffer` writes. -/
def highByte (value : UInt16) : UInt8 := (value >>> 8).toUInt8

/-- The second byte that `AssignUWord16ToBuffer` writes. -/
def lowByte (value : UInt16) : UInt8 := value.toUInt8

/-- `BufferToUWord16` of the two bytes. -/
def word16 (high low : UInt8) : UInt16 :=
  (high.toUInt16 <<< 8) + low.toUInt16

/-- `AssignUWord16ToBuffer(data + pos, value)`. -/
def assignUWord16 (data : ℕ → UInt8) (pos : ℕ) (value : UInt16) : ℕ → UInt8 :=
  fun i =>
    if i = pos then highByte value
    else if i = pos + 1 then lowByte value
    else data i

/-- `BufferToUWord16(data + pos)`. -/
def bufferToUWord16 (data : ℕ → UInt8) (pos : ℕ) : UInt16 :=
  word16 (data pos) (data (pos + 1))

/-- `AssignUWord32ToBuffer(data + pos, value)`. -/
def assignUWord32 (data : ℕ → UInt8) (pos : ℕ) (value : UInt32) : ℕ → UInt8 :=
  fun i =>
    if i = pos then (value >>> 24).toUInt8
    else if i = pos + 1 then (value >>> 16).toUInt8
    else if i = pos + 2 then (value >>> 8).toUInt8
    else if i = pos + 3 then value.toUInt8
    else data i

def parseSequenceNumber (packet : ℕ → UInt8) : UInt16 :=
  bufferToUWord16 packet 2

def Packet.seqNum (p : Packet) : UInt16 := parseSequenceNumber p.data

theorem word16_toNat (high low : UInt8) :
    (word16 high low).toNat = 256 * high.toNat + low.toNat := by
  have hhigh := high.toNat_lt
  have hlow := low.toNat_lt
  simp only [word16, UInt16.toNat_add, UInt16.toNat_shiftLeft,
    UInt8.toNat_toUInt16, UInt16.reduceToNat, Nat.reduceMod,
    Nat.shiftLeft_eq]
  omega

theorem highByte_toNat (value : UInt16) :
    (highByte value).toNat = value.toNat / 256 := by
  have h := value.toNat_lt
  simp only [highByte, UInt16.toNat_toUInt8, UInt16.toNat_shiftRight,
    UInt16.reduceToNat, Nat.reduceMod, Nat.shiftRight_eq_div_pow]
  omega

theorem lowByte_toNat (value : UInt16) :
    (lowByte value).toNat = value.toNat % 256 := by
  simp [lowByte]

@[simp] theorem word16_bytes (value : UInt16) :
    word16 (highByte value) (lowByte value) = value := by
  apply UInt16.toNat_inj.mp
  rw [word16_toNat, highByte_toNat, lowByte_toNat]
  omega

@[simp] theorem highByte_word16 (high low : UInt8) :
    highByte (word16 high low) = high := by
  have hlow := low.toNat_lt
  apply UInt8.toNat_inj.mp
  rw [highByte_toNat, word16_toNat]
  omega

@[simp] theorem lowByte_word16 (high low : UInt8) :
    lowByte (word16 high low) = low := by
  have hlow := low.toNat_lt
  apply UInt8.toNat_inj.mp
  rw [lowByte_toNat, word16_toNat]
  omega

def isNewerSequenceNumber (sequenceNumber prevSequenceNumber : UInt16) :
    Bool :=
  sequenceNumber != prevSequenceNumber &&
    decide (sequenceNumber - prevSequenceNumber < 0x8000)

/-- `SortablePacket::LessThan`. -/
def lessThan (first second : UInt16) : Bool :=
  isNewerSequenceNumber second first

theorem lessThan_iff {first second : UInt16} :
    lessThan first second ↔
      0 < (second - first).toNat ∧ (second - first).toNat < 32768 := by
  have hzero : second = first ↔ (second - first).toNat = 0 := by
    rw [show (0 : ℕ) = (0 : UInt16).toNat from rfl, UInt16.toNat_inj,
      sub_eq_zero]
  simp only [lessThan, isNewerSequenceNumber, Bool.and_eq_true, bne_iff_ne,
    ne_eq, hzero, decide_eq_true_eq, UInt16.lt_iff_toNat_lt,
    UInt16.reduceToNat]
  omega

theorem lessThan_add_right (first second k : UInt16) :
    lessThan (first + k) (second + k) = lessThan first second := by
  have hsub : second + k - (first + k) = second - first := by
    rw [add_sub_add_right_eq_sub]
  have hne : (second + k != first + k) = (second != first) := by
    rw [Bool.eq_iff_iff]
    simp
  rw [lessThan, lessThan, isNewerSequenceNumber, isNewerSequenceNumber, hsub,
    hne]

end WebrtcWinXp.Fec
