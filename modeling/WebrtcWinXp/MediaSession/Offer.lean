import WebrtcWinXp.MediaSession.Codec
import WebrtcWinXp.Support.OrderedMap

/-!
# What is offered

The codecs and header extensions of the current description are offered again,
and the supported ones that are not among them are added with unused ids.
-/

namespace WebrtcWinXp.MediaSession

open Support

abbrev UsedPayloadTypes := UsedIds 96 127

abbrev UsedRtpHeaderExtensionIds := UsedIds 1 14

section

variable {κ : Type} [CodecKind κ]

def findMatchingCodec (codecs : List (Codec κ)) (codecToMatch : Codec κ) :
    Option (Codec κ) :=
  codecs.find? fun codec => codec.Matches codecToMatch

def isNew (offered : List (Codec κ)) (codec : Codec κ) : Bool :=
  (findMatchingCodec offered codec).isNone

/-- A new RTX codec is kept under the payload type that it refers to. -/
def addRtxCodec (offered : List (Codec κ)) (rtx : OrderedMap ℤ (Codec κ))
    (codec : Codec κ) : OrderedMap ℤ (Codec κ) :=
  if isNew offered codec && codec.isRtx then
    let (apt, params) :=
      codec.params.subscript kCodecParamAssociatedPayloadType []
    rtx.insert (fromString apt)
      { codec with
        params := params }
  else rtx

def newRtxCodecs (reference offered : List (Codec κ)) :
    OrderedMap ℤ (Codec κ) :=
  reference.foldl (addRtxCodec offered) .empty

structure CodecsToOffer (κ : Type) where
  offered : List (Codec κ)
  rtxCodecs : OrderedMap ℤ (Codec κ)
  used : UsedPayloadTypes

/-- A new codec, which the RTX codec that refers to it follows. -/
def addCodec (s : CodecsToOffer κ) (codec : Codec κ) : CodecsToOffer κ :=
  if isNew s.offered codec && !codec.isRtx then
    let (used, codec') := s.used.findAndSetUsed codec
    { offered := s.offered ++ [codec']
      rtxCodecs := s.rtxCodecs.modify codec.id.toInt fun rtx =>
        rtx.setParam kCodecParamAssociatedPayloadType
          (intToString codec'.id.toInt)
      used := used }
  else s

def findCodecsToOffer (reference offered : List (Codec κ))
    (used : UsedPayloadTypes) : List (Codec κ) × UsedPayloadTypes :=
  let s := reference.foldl addCodec
    ⟨offered, newRtxCodecs reference offered, used⟩
  let (used, rtx) := s.used.findAndSetAllUsed
    (s.rtxCodecs.entries.map Prod.snd)
  (s.offered ++ rtx, used)

end

def findByUri (extensions : List RtpHeaderExtension)
    (extToMatch : RtpHeaderExtension) : Option RtpHeaderExtension :=
  extensions.find? fun ext => ext.uri = extToMatch.uri

/-- A new extension, which gets the id that the other media type has for it. -/
def addRtpHdrExt (other : List RtpHeaderExtension)
    (s : List RtpHeaderExtension × UsedRtpHeaderExtensionIds)
    (ext : RtpHeaderExtension) :
    List RtpHeaderExtension × UsedRtpHeaderExtensionIds :=
  match findByUri s.1 ext with
  | some _ => s
  | none =>
    match findByUri other ext with
    | some found => (s.1 ++ [found], s.2)
    | none =>
      let (used, ext) := s.2.findAndSetUsed ext
      (s.1 ++ [ext], used)

def findAndSetRtpHdrExtUsed
    (reference offered other : List RtpHeaderExtension)
    (used : UsedRtpHeaderExtensionIds) :
    List RtpHeaderExtension × UsedRtpHeaderExtensionIds :=
  reference.foldl (addRtpHdrExt other) (offered, used)

inductive SecurePolicy where
  | disabled
  | enabled
  | required
  deriving DecidableEq

structure MediaSessionDescriptionFactory where
  audioCodecs : List AudioCodec
  audioRtpExtensions : List RtpHeaderExtension
  videoCodecs : List VideoCodec
  videoRtpExtensions : List RtpHeaderExtension
  dataCodecs : List DataCodec
  secure : SecurePolicy
  addLegacy : Bool

/-- The codecs of all media types, and the payload types that they use. -/
structure Codecs where
  audio : List AudioCodec
  video : List VideoCodec
  data : List DataCodec

structure Extensions where
  audio : List RtpHeaderExtension
  video : List RtpHeaderExtension

/-- The codecs of the first content of each media type, if it is there. -/
def currentCodecs (current : Option SessionDescription) : Codecs where
  audio := ((current.bind SessionDescription.firstAudio).map
    MediaContentDescription.codecs).getD []
  video := ((current.bind SessionDescription.firstVideo).map
    MediaContentDescription.codecs).getD []
  data := ((current.bind SessionDescription.firstData).map
    MediaContentDescription.codecs).getD []

def currentExtensions (current : Option SessionDescription) : Extensions where
  audio := ((current.bind SessionDescription.firstAudio).map
    MediaContentDescription.rtpHeaderExtensions).getD []
  video := ((current.bind SessionDescription.firstVideo).map
    MediaContentDescription.rtpHeaderExtensions).getD []

namespace MediaSessionDescriptionFactory

variable (factory : MediaSessionDescriptionFactory)

def getCodecsToOffer (current : Option SessionDescription) :
    Codecs × UsedPayloadTypes :=
  let codecs := currentCodecs current
  let (used, audio) := UsedIds.new.findAndSetAllUsed codecs.audio
  let (used, video) := used.findAndSetAllUsed codecs.video
  let (used, data) := used.findAndSetAllUsed codecs.data
  let (audio, used) := findCodecsToOffer factory.audioCodecs audio used
  let (video, used) := findCodecsToOffer factory.videoCodecs video used
  let (data, used) := findCodecsToOffer factory.dataCodecs data used
  (⟨audio, video, data⟩, used)

def getRtpHdrExtsToOffer (current : Option SessionDescription) :
    Extensions × UsedRtpHeaderExtensionIds :=
  let extensions := currentExtensions current
  let (used, audio) := UsedIds.new.findAndSetAllUsed extensions.audio
  let (used, video) := used.findAndSetAllUsed extensions.video
  let (audio, used) := findAndSetRtpHdrExtUsed factory.audioRtpExtensions audio
    video used
  let (video, used) := findAndSetRtpHdrExtUsed factory.videoRtpExtensions video
    audio used
  (⟨audio, video⟩, used)

end MediaSessionDescriptionFactory

end WebrtcWinXp.MediaSession
