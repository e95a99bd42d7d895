import WebrtcWinXp.Rtcp.Parser
import WebrtcWinXp.Support.Bytes
import WebrtcWinXp.Support.Loop

/-!
# Feedback that is sent

The functions of `RTCPSender` that write feedback.  Each returns the bytes that
it puts behind the position in the buffer, or nothing where there is no room.
-/

namespace WebrtcWinXp.Rtcp

open Support

def IP_PACKET_SIZE : ℕ := 1500

def kRtcpMaxNackFields : ℕ := 253

structure RTCPSender where
  ssrc : UInt32
  remoteSsrc : UInt32
  rembSsrc : List UInt32 := []
  rembBitrate : UInt32 := 0
  tmmbrSend : UInt32 := 0
  packetOhSend : UInt32 := 0

/-- `AssignUWord32ToBuffer`. -/
def assignUWord32 (value : UInt32) : List UInt8 := toBE 4 value.toNat

/-- `AssignUWord16ToBuffer`. -/
def assignUWord16 (value : UInt16) : List UInt8 := toBE 2 value.toNat

/-- The first four bytes of a feedback block, its length in 16 bits. -/
def feedbackHeader (fmt pt : UInt8) (length : UInt16) : List UInt8 :=
  [0x80 + fmt, pt] ++ assignUWord16 length

/-! ## NACK -/

/-- `static_cast<uint16_t>(next - nack) - 1`. -/
def nackShift (nack next : UInt16) : ℤ := ((next - nack).toNat : ℤ) - 1

/-- The inner loop of `BuildNACK`: the bits of the numbers that follow `nack`
closely, and the rest of the list. -/
def collectBits (nack : UInt16) :
    UInt16 → List UInt16 → UInt16 × List UInt16
  | bitmask, [] => (bitmask, [])
  | bitmask, next :: rest =>
    if 0 ≤ nackShift nack next ∧ nackShift nack next ≤ 15 then
      collectBits nack
        (bitmask ||| 1 <<< UInt16.ofNat (nackShift nack next).toNat) rest
    else (bitmask, next :: rest)

theorem length_collectBits (nack bitmask : UInt16) (list : List UInt16) :
    (collectBits nack bitmask list).2.length ≤ list.length := by
  fun_induction collectBits nack bitmask list with
  | case1 bitmask => exact le_rfl
  | case2 bitmask next rest hshift ih => exact Nat.le_succ_of_le ih
  | case3 bitmask next rest hshift => exact le_rfl

/-- The loop of `BuildNACK`: the fields, at most `maxNackFields`, and what is
left of the list. -/
def nackFields : ℕ → List UInt16 → List (UInt16 × UInt16) × List UInt16
  | 0, list => ([], list)
  | _, [] => ([], [])
  | maxNackFields + 1, nack :: list =>
    let bits := collectBits nack 0 list
    let fields := nackFields maxNackFields bits.2
    ((nack, bits.1) :: fields.1, fields.2)

/-- The fields there is room for behind the header, whose end is at `pos`. -/
def maxNackFields (pos : ℕ) : ℕ :=
  min kRtcpMaxNackFields ((IP_PACKET_SIZE - pos) / 4)

namespace RTCPSender

variable (s : RTCPSender)

def feedbackSsrcs (mediaSsrc : UInt32) : List UInt8 :=
  assignUWord32 s.ssrc ++ assignUWord32 mediaSsrc

/-- The bytes, and how many entries of the list they stand for.  The assertion
on the position of a field is compiled out of a release build. -/
def buildNACK (pos : ℕ) (nackList : List UInt16) : Option (List UInt8 × ℕ) :=
  if pos + 16 ≥ IP_PACKET_SIZE then none
  else
    let fields := nackFields (maxNackFields (pos + 12)) nackList
    some
      ([0x81, 205, 0, UInt8.ofNat (2 + fields.1.length)] ++
          s.feedbackSsrcs s.remoteSsrc ++
          fields.1.flatMap fun field =>
            assignUWord16 field.1 ++ assignUWord16 field.2,
        nackList.length - fields.2.length)

/-- One round of the loop over the bits of a picture id. -/
def countBits (pictureId : UInt64) :
    UInt64 × ℕ → Option (UInt64 × ℕ)
  | (bitsRequired, bytesRequired) =>
    if pictureId >>> bitsRequired > 0 then
      some (bitsRequired + 7, bytesRequired + 1)
    else none

/-- The bytes of the bit string: seven bits in each, and a mark on all but the
last one. -/
def nativeBitString (pictureId : UInt64) (bytesRequired : ℕ) : List UInt8 :=
  (List.range (bytesRequired - 1)).map (fun j =>
      0x80 ||| (pictureId >>>
        UInt64.ofNat ((bytesRequired - 1 - j) * 7)).toUInt8) ++
    [(pictureId &&& 0x7f).toUInt8]

def rpsiSize (bytesRequired : ℕ) : UInt8 :=
  if bytesRequired > 6 then 5 else if bytesRequired > 2 then 4 else 3

def paddingBytes (bytesRequired : ℕ) : ℕ :=
  if 4 - (2 + bytesRequired) % 4 = 4 then 0 else 4 - (2 + bytesRequired) % 4

/-- The loop has `fuel` rounds. -/
def buildRPSI (fuel pos : ℕ) (pictureId : UInt64) (payloadType : UInt8) :
    Option (List UInt8) :=
  if pos + 24 ≥ IP_PACKET_SIZE then none
  else
    (loop (countBits pictureId) fuel (7, 1)).map fun (_, bytesRequired) =>
      [0x83, 206, 0, rpsiSize bytesRequired] ++
        s.feedbackSsrcs s.remoteSsrc ++
        [UInt8.ofNat (paddingBytes bytesRequired * 8), payloadType] ++
        nativeBitString pictureId bytesRequired ++
        List.replicate (paddingBytes bytesRequired) 0

/-- The search for the exponent of a bitrate; 0 when none is found. -/
def findExponent (maxMantissa bitrate : UInt32) : UInt32 :=
  (((List.range 64).map UInt32.ofNat).find? fun i =>
    bitrate ≤ maxMantissa <<< i).getD 0

/-- The three bytes of exponent and mantissa in an REMB. -/
def rembRate (bitrate : UInt32) : List UInt8 :=
  let brExp := findExponent 262143 bitrate
  let brMantissa := bitrate >>> brExp
  [((brExp <<< 2) + ((brMantissa >>> 16) &&& 0x03)).toUInt8,
    (brMantissa >>> 8).toUInt8, brMantissa.toUInt8]

def buildREMB (pos : ℕ) : Option (List UInt8) :=
  if pos + 20 + 4 * s.rembSsrc.length ≥ IP_PACKET_SIZE then none
  else some
    ([0x8f, 206, 0, UInt8.ofNat (s.rembSsrc.length + 4)] ++
      s.feedbackSsrcs 0 ++ [0x52, 0x45, 0x4d, 0x42] ++
      [UInt8.ofNat s.rembSsrc.length] ++ rembRate s.rembBitrate ++
      s.rembSsrc.flatMap assignUWord32)

/-- The four bytes of exponent, mantissa and overhead in a TMMBR and a TMMBN. -/
def tmmbrRate (tmmbr packetOh : UInt32) : List UInt8 :=
  let bitRate := tmmbr * 1000
  let mmbrExp := findExponent 131071 bitRate
  let mmbrMantissa := bitRate >>> mmbrExp
  [((mmbrExp <<< 2) + ((mmbrMantissa >>> 15) &&& 0x03)).toUInt8,
    (mmbrMantissa >>> 7).toUInt8,
    ((mmbrMantissa <<< 1) + ((packetOh >>> 8) &&& 0x01)).toUInt8,
    packetOh.toUInt8]

/-- What `BuildTMMBR` writes once the request is to be sent; nothing for the
rate 0. -/
def writeTMMBR (pos : ℕ) : Option (List UInt8) :=
  if s.tmmbrSend = 0 then some []
  else if pos + 20 ≥ IP_PACKET_SIZE then none
  else some
    ([0x83, 205, 0, 4] ++ s.feedbackSsrcs 0 ++ assignUWord32 s.remoteSsrc ++
      tmmbrRate s.tmmbrSend s.packetOhSend)

/-- An entry of the bounding set: rate, overhead and SSRC. -/
structure TmmbnEntry where
  tmmbr : UInt32
  packetOh : UInt32
  ssrc : UInt32

def buildTMMBN (pos : ℕ) (boundingSet : List TmmbnEntry) :
    Option (List UInt8) :=
  if pos + 12 + boundingSet.length * 8 ≥ IP_PACKET_SIZE then none
  else
    let written := boundingSet.filter fun entry => entry.tmmbr > 0
    some
      (feedbackHeader 4 205 (UInt16.ofNat (2 + 2 * written.length)) ++
        s.feedbackSsrcs 0 ++
        written.flatMap fun entry =>
          assignUWord32 entry.ssrc ++ tmmbrRate entry.tmmbr entry.packetOh)

end RTCPSender

end WebrtcWinXp.Rtcp
