import WebrtcWinXp.Support.CString
import WebrtcWinXp.Support.StdMap
import WebrtcWinXp.MediaSession.UsedIds

/-!
# Codecs

The three kinds of codecs differ in the fields they add and in what `Matches`
asks of them.
-/

namespace WebrtcWinXp.MediaSession

open Support

def kMaxStaticPayloadId : ℤ := 95

def kRtxCodecName : Str := ['r', 't', 'x']

def kComfortNoiseCodecName : Str := ['C', 'N']

def kCodecParamAssociatedPayloadType : Str := ['a', 'p', 't']

structure FeedbackParam where
  id : Str
  param : Str

namespace FeedbackParam

/-- `operator==`. -/
def eq (other this : FeedbackParam) : Bool :=
  stricmpEq other.id this.id && stricmpEq other.param this.param

end FeedbackParam

/-- What a kind of codec adds to `Codec::Matches`, where the clock rates come
first. -/
class CodecKind (κ : Type) where
  compatible : Int32 → κ → Int32 → κ → Bool
  compatible_self : ∀ rate fields, compatible rate fields rate fields

structure Codec (κ : Type) where
  id : Int32
  name : Str
  clockrate : Int32
  preference : Int32
  params : StdMap Str Str
  feedbackParams : List FeedbackParam
  fields : κ

structure AudioFields where
  bitrate : Int32
  channels : Int32

structure VideoFields where
  width : Int32
  height : Int32
  framerate : Int32

abbrev AudioCodec := Codec AudioFields
abbrev VideoCodec := Codec VideoFields
abbrev DataCodec := Codec Unit

/-- The conditions of `AudioCodec::Matches`, where a clock rate or bit rate of
zero leaves it open, and no channels are one channel. -/
def AudioFields.compatible (clockrate : Int32) (ours : AudioFields)
    (theirRate : Int32) (theirs : AudioFields) : Bool :=
  (theirRate = 0 || clockrate = theirRate) &&
    (theirs.bitrate = 0 || ours.bitrate.toInt ≤ 0 ||
      ours.bitrate = theirs.bitrate) &&
    ((theirs.channels.toInt < 2 && ours.channels.toInt < 2) ||
      ours.channels = theirs.channels)

instance : CodecKind AudioFields where
  compatible := AudioFields.compatible
  compatible_self rate fields := by simp [AudioFields.compatible]

instance : CodecKind VideoFields where
  compatible _ _ _ _ := true
  compatible_self _ _ := rfl

instance : CodecKind Unit where
  compatible _ _ _ _ := true
  compatible_self _ _ := rfl

namespace Codec

variable {κ : Type} [CodecKind κ]

/-- `Matches`: static payload types go by number, the others by name. -/
def Matches (ours codec : Codec κ) : Bool :=
  (if codec.id.toInt ≤ kMaxStaticPayloadId then decide (ours.id = codec.id)
  else stricmpEq ours.name codec.name) &&
    CodecKind.compatible ours.clockrate ours.fields codec.clockrate codec.fields

omit [CodecKind κ]

def getParam (codec : Codec κ) (name : Str) : Option Str :=
  codec.params.find name

def setParam (codec : Codec κ) (name value : Str) : Codec κ :=
  { codec with
    params := codec.params.assign name value }

def intersectFeedbackParams (codec other : Codec κ) : Codec κ :=
  { codec with
    feedbackParams := codec.feedbackParams.filter fun p =>
      other.feedbackParams.any p.eq }

def isRtx (codec : Codec κ) : Bool :=
  stricmpEq codec.name kRtxCodecName

/-- The associated payload type, which is zero where there is none. -/
def associatedPayloadType (codec : Codec κ) : ℤ :=
  fromString ((codec.getParam kCodecParamAssociatedPayloadType).getD [])

variable [CodecKind κ]

@[simp] theorem matches_self (codec : Codec κ) : codec.Matches codec := by
  simp [Matches, CodecKind.compatible_self]

end Codec

structure RtpHeaderExtension where
  uri : Str
  id : Int32
  deriving DecidableEq

instance {κ : Type} : HasId (Codec κ) where
  id := Codec.id
  setId codec id :=
    { codec with
      id := Int32.ofInt id }
  id_setId _ _ := rfl
  setId_id codec := by simp

instance : HasId RtpHeaderExtension where
  id := RtpHeaderExtension.id
  setId ext id :=
    { ext with
      id := Int32.ofInt id }
  id_setId _ _ := rfl
  setId_id ext := by simp

/-!
## Session descriptions

The parts of session descriptions that offers and answers are built from.
-/

section

open Support

structure CryptoParams where
  tag : Int32
  cipherSuite : Str
  keyParams : Str
  sessionParams : Str
  deriving DecidableEq

/-- `CryptoParams::Matches`. -/
def CryptoParams.Matches (crypto params : CryptoParams) : Bool :=
  crypto.tag = params.tag && crypto.cipherSuite = params.cipherSuite

structure SsrcGroup where
  semantics : Str
  ssrcs : List UInt32

structure StreamParams where
  groupid : Str
  id : Str
  ssrcs : List UInt32
  ssrcGroups : List SsrcGroup
  cname : Str
  syncLabel : Str

inductive MediaType where
  | audio
  | video
  | data
  deriving DecidableEq

inductive MediaContentDirection where
  | inactive
  | sendonly
  | recvonly
  | sendrecv

inductive CryptoType where
  | none
  | sdes
  | dtls
  deriving DecidableEq

/-- `MediaContentDescriptionImpl` for a kind of codecs. -/
structure MediaContentDescription (κ : Type) where
  protocol : Str
  rtcpMux : Bool
  bandwidth : Int32
  cryptos : List CryptoParams
  cryptoRequired : CryptoType
  rtpHeaderExtensions : List RtpHeaderExtension
  multistream : Bool
  streams : List StreamParams
  direction : MediaContentDirection
  codecs : List (Codec κ)

abbrev AudioContentDescription := MediaContentDescription AudioFields
abbrev VideoContentDescription := MediaContentDescription VideoFields
abbrev DataContentDescription := MediaContentDescription Unit

inductive ContentDescription where
  | audio (desc : AudioContentDescription)
  | video (desc : VideoContentDescription)
  | data (desc : DataContentDescription)

/-- The namespaces of media contents, which are the only contents here. -/
inductive ContentType where
  | rtp
  | draftSctp

structure ContentInfo where
  name : Str
  type : ContentType
  rejected : Bool
  description : ContentDescription

structure TransportDescription where
  iceUfrag : Str
  icePwd : Str
  identityFingerprint : Option Str

def TransportDescription.secure (desc : TransportDescription) : Bool :=
  desc.identityFingerprint.isSome

structure TransportInfo where
  contentName : Str
  description : TransportDescription

structure ContentGroup where
  semantics : Str
  contentNames : List Str

structure SessionDescription where
  contents : List ContentInfo
  transportInfos : List TransportInfo
  contentGroups : List ContentGroup

def ContentDescription.type : ContentDescription → MediaType
  | .audio _ => .audio
  | .video _ => .video
  | .data _ => .data

def ContentDescription.audio? : ContentDescription →
    Option AudioContentDescription
  | .audio desc => some desc
  | _ => none

def ContentDescription.video? : ContentDescription →
    Option VideoContentDescription
  | .video desc => some desc
  | _ => none

def ContentDescription.data? : ContentDescription →
    Option DataContentDescription
  | .data desc => some desc
  | _ => none

namespace SessionDescription

variable (sdesc : SessionDescription)

/-- `GetFirstMediaContent` for a media type. -/
def firstContent (type : MediaType) : Option ContentInfo :=
  sdesc.contents.find? fun content => content.description.type = type

/-- `GetFirstAudioContentDescription`. -/
def firstAudio : Option AudioContentDescription :=
  (sdesc.firstContent .audio).bind fun content => content.description.audio?

/-- `GetFirstVideoContentDescription`. -/
def firstVideo : Option VideoContentDescription :=
  (sdesc.firstContent .video).bind fun content => content.description.video?

/-- `GetFirstDataContentDescription`. -/
def firstData : Option DataContentDescription :=
  (sdesc.firstContent .data).bind fun content => content.description.data?

end SessionDescription

end

end WebrtcWinXp.MediaSession
