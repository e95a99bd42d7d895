import Mathlib.Data.UInt

/-!
# The VP8 payload descriptor

How long the descriptor is that `RtpPacketizerVp8` writes before the payload of
a packet, and the fields that `RTPPayloadParser` reads of it.
-/

namespace WebrtcWinXp.Vp8

def kNoPictureId : ℤ := -1
def kNoTl0PicIdx : ℤ := -1
def kNoTemporalIdx : UInt8 := 0xFF
def kNoKeyIdx : ℤ := -1

/-- `RTPVideoHeaderVP8`, with the widths that its comments give to the
fields. -/
structure RTPVideoHeaderVP8 where
  nonReference : Bool
  pictureId : ℤ
  tl0PicIdx : ℤ
  temporalIdx : UInt8
  layerSync : Bool
  keyIdx : ℤ
  pictureId_range : kNoPictureId ≤ pictureId ∧ pictureId < 2 ^ 15
  tl0PicIdx_range : kNoTl0PicIdx ≤ tl0PicIdx ∧ tl0PicIdx < 2 ^ 8
  temporalIdx_range : temporalIdx ≤ 3 ∨ temporalIdx = kNoTemporalIdx
  layerSync_disabled : temporalIdx = kNoTemporalIdx → layerSync = false
  keyIdx_range : kNoKeyIdx ≤ keyIdx ∧ keyIdx < 2 ^ 5

def vp8FixedPayloadDescriptorBytes : ℕ := 1

namespace RTPVideoHeaderVP8

variable (hdr : RTPVideoHeaderVP8)

def pictureIdLength : ℕ :=
  if hdr.pictureId = kNoPictureId then 0
  else if hdr.pictureId ≤ 0x7F then 1
  else 2

def tidFieldPresent : Bool := hdr.temporalIdx != kNoTemporalIdx

def keyIdxFieldPresent : Bool := hdr.keyIdx != kNoKeyIdx

def tl0PicIdxFieldPresent : Bool := hdr.tl0PicIdx != kNoTl0PicIdx

def payloadDescriptorExtraLength : ℕ :=
  let length := hdr.pictureIdLength +
    (if hdr.tl0PicIdxFieldPresent then 1 else 0) +
    (if hdr.tidFieldPresent || hdr.keyIdxFieldPresent then 1 else 0)
  if 0 < length then length + 1 else length

end RTPVideoHeaderVP8

inductive FrameTypes where
  | kIFrame
  | kPFrame
deriving DecidableEq

/-- `RTPPayloadVP8` and the frame type; the defaults are those of `SetType`, which
leaves `keyIdx` as it was. -/
structure RTPPayloadVP8 where
  frameType : FrameTypes := .kPFrame
  nonReferenceFrame : Bool := false
  beginningOfPartition : Bool := false
  partitionID : ℕ := 0
  hasPictureID : Bool := false
  hasTl0PicIdx : Bool := false
  hasTID : Bool := false
  hasKeyIdx : Bool := false
  pictureID : ℤ := -1
  tl0PicIdx : ℤ := -1
  tID : ℤ := -1
  layerSync : Bool := false
  keyIdx : ℤ := -1
  frameWidth : ℕ := 0
  frameHeight : ℕ := 0
  data : List UInt8 := []
deriving DecidableEq

end WebrtcWinXp.Vp8
